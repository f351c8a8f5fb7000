import FilterSql.Proofs.Checks

/-! Which formulas can be lowered, and what stands in the way of the others. A formula suits a scope
when its names denote columns there and its operators take their operands. Formulas that were not
read from a filter need not, and the one thing reported of such a formula is its first obstacle in
document order: the name of a column before its checks, these from left to right, and of a check the
operator, the form of the operand and the column in it. -/

namespace FilterSql

/-! ### Suitable formulas -/

/-- The categories of operators that compare with an operand of this form. -/
def Operand.categories : Operand → List Operator.Category
  | .scalar _ => [.comparison, .pattern, .regex]
  | .list _ => [.membership]
  | .range _ _ => [.range]
  | .column _ => [.columnCompare]

/-- The name denotes a column of the scope. -/
def Scope.Names (scope : Scope) (name : String) : Prop := ∃ column, scope.column name = .ok column

structure Check.Suits (scope : Scope) (check : Check) : Prop where
  operator : check.operator.category ≠ .booleanGroup
  operand : check.operator.category ∈ check.operand.categories
  column : ∀ name, check.operand = .column name → scope.Names name

mutual

inductive Formula.Suits (scope : Scope) : Formula → Prop
  | conjunction {entries : List Entry} (hentries : ∀ entry ∈ entries, Entry.Suits scope entry) :
      Formula.Suits scope (.conjunction entries)
  | disjunction {branches : List Formula}
      (hbranches : ∀ branch ∈ branches, Formula.Suits scope branch) :
      Formula.Suits scope (.disjunction branches)

inductive Entry.Suits (scope : Scope) : Entry → Prop
  | column {name : String} {test : Test} (hname : scope.Names name)
      (hchecks : ∀ check ∈ test.checks, check.Suits scope) : Entry.Suits scope (.column name test)
  | group {connective : Connective} {members : List Formula}
      (hmembers : ∀ member ∈ members, Formula.Suits scope member) :
      Entry.Suits scope (.group connective members)

end

/-! ### Obstacles -/

/-- What stands in the way of a check on a column, in the order in which it is looked for. -/
inductive Check.ObstacleAt (scope : Scope) (column : ColumnRef) (check : Check) :
    Findings FilterFault
  | operator (hoperator : check.operator.category = .booleanGroup) :
      ObstacleAt scope column check [0] (.malformed (.groupOnColumn check.operator column))
  | operand (hoperand : check.operator.category ∉ check.operand.categories) :
      ObstacleAt scope column check [1]
        (.malformed (.operandMismatch check.operator column check.operand))
  | column {name : String} {fault : NameFault} (hoperand : check.operand = .column name)
      (hname : scope.column name = .error fault) : ObstacleAt scope column check [2] (.name fault)

mutual

/-- What stands in the way of a formula, and where. -/
inductive Formula.ObstacleAt (scope : Scope) : Formula → Findings FilterFault
  | entry {entries : List Entry} {entry : Entry} {index : Nat} {place : List Nat}
      {fault : FilterFault} (hentry : entries[index]? = some entry)
      (hfault : Entry.ObstacleAt scope entry place fault) :
      Formula.ObstacleAt scope (.conjunction entries) (index :: place) fault
  | branch {branches : List Formula} {branch : Formula} {index : Nat} {place : List Nat}
      {fault : FilterFault} (hbranch : branches[index]? = some branch)
      (hfault : Formula.ObstacleAt scope branch place fault) :
      Formula.ObstacleAt scope (.disjunction branches) (index :: place) fault

/-- What stands in the way of an entry. The name of a column comes before the checks on it. -/
inductive Entry.ObstacleAt (scope : Scope) : Entry → Findings FilterFault
  | name {name : String} {test : Test} {fault : NameFault}
      (hname : scope.column name = .error fault) :
      Entry.ObstacleAt scope (.column name test) [0] (.name fault)
  | check {name : String} {test : Test} {column : ColumnRef} {check : Check} {index : Nat}
      {place : List Nat} {fault : FilterFault} (hname : scope.column name = .ok column)
      (hcheck : test.checks[index]? = some check)
      (hfault : check.ObstacleAt scope column place fault) :
      Entry.ObstacleAt scope (.column name test) (1 :: index :: place) fault
  | member {connective : Connective} {members : List Formula} {member : Formula} {index : Nat}
      {place : List Nat} {fault : FilterFault} (hmember : members[index]? = some member)
      (hfault : Formula.ObstacleAt scope member place fault) :
      Entry.ObstacleAt scope (.group connective members) (index :: place) fault

end

variable {scope : Scope}

namespace Formula

theorem suits_conjunction {entries : List Entry} :
    (conjunction entries).Suits scope ↔ ∀ entry ∈ entries, entry.Suits scope := by
  constructor
  · rintro (hentries | _)
    exact hentries
  · exact .conjunction

theorem suits_disjunction {branches : List Formula} :
    (disjunction branches).Suits scope ↔ ∀ branch ∈ branches, branch.Suits scope := by
  constructor
  · rintro (_ | hbranches)
    exact hbranches
  · exact .disjunction

theorem obstacleAt_conjunction {entries : List Entry} {place : List Nat} {fault : FilterFault} :
    (conjunction entries).ObstacleAt scope place fault ↔
      Findings.within (Entry.ObstacleAt scope) entries place fault := by
  constructor
  · rintro (⟨hentry, hfault⟩ | _)
    exact ⟨_, _, _, hentry, rfl, hfault⟩
  · rintro ⟨index, entry, place, hentry, rfl, hfault⟩
    exact .entry hentry hfault

theorem obstacleAt_disjunction {branches : List Formula} {place : List Nat}
    {fault : FilterFault} :
    (disjunction branches).ObstacleAt scope place fault ↔
      Findings.within (ObstacleAt scope) branches place fault := by
  constructor
  · rintro (_ | ⟨hbranch, hfault⟩)
    exact ⟨_, _, _, hbranch, rfl, hfault⟩
  · rintro ⟨index, branch, place, hbranch, rfl, hfault⟩
    exact .branch hbranch hfault

end Formula

namespace Entry

theorem suits_column {name : String} {test : Test} :
    (column name test).Suits scope ↔
      scope.Names name ∧ ∀ check ∈ test.checks, check.Suits scope := by
  constructor
  · rintro (⟨hname, hchecks⟩ | _)
    exact ⟨hname, hchecks⟩
  · rintro ⟨hname, hchecks⟩
    exact .column hname hchecks

theorem suits_group {connective : Connective} {members : List Formula} :
    (group connective members).Suits scope ↔ ∀ member ∈ members, member.Suits scope := by
  constructor
  · rintro (_ | hmembers)
    exact hmembers
  · exact .group

theorem obstacleAt_group {connective : Connective} {members : List Formula} {place : List Nat}
    {fault : FilterFault} :
    (group connective members).ObstacleAt scope place fault ↔
      Findings.within (Formula.ObstacleAt scope) members place fault := by
  constructor
  · rintro (_ | _ | ⟨hmember, hfault⟩)
    exact ⟨_, _, _, hmember, rfl, hfault⟩
  · rintro ⟨index, member, place, hmember, rfl, hfault⟩
    exact .member hmember hfault

/-- The checks are looked at once the name has been found. -/
theorem obstacleAt_column {name : String} {test : Test} {place : List Nat}
    {fault : FilterFault} :
    (column name test).ObstacleAt scope place fault ↔
      Findings.inTurn
        [.ofReader FilterFault.name (scope.column name),
          fun place fault => ∃ column, scope.column name = .ok column ∧
            Findings.within (Check.ObstacleAt scope column) test.checks place fault]
        place fault := by
  constructor
  · intro h
    cases h with
    | name hname => exact ⟨0, _, [], rfl, rfl, rfl, _, hname, rfl⟩
    | check hname hcheck hfault =>
        exact ⟨1, _, _, rfl, rfl, _, hname, _, _, _, hcheck, rfl, hfault⟩
  · rintro ⟨index, stage, inner, hstage, rfl, hfault⟩
    match index, hstage with
    | 0, rfl =>
        obtain ⟨rfl, found, hname, rfl⟩ := hfault
        exact .name hname
    | 1, rfl =>
        obtain ⟨column, hname, index, check, place, hcheck, rfl, hfault⟩ := hfault
        exact .check hname hcheck hfault

end Entry

/-! ### Lowering -/

namespace Predicate

variable {column : ColumnRef} {parameter : String} {operator : Operator} {operand : Operand}

theorem ofCheck_of_booleanGroup (hoperator : operator.category = .booleanGroup) :
    ofCheck scope column parameter ⟨operator, operand⟩ =
      .error (.malformed (.groupOnColumn operator column)) := by
  simp only [ofCheck, hoperator]

theorem ofCheck_of_notMem (hoperator : operator.category ≠ .booleanGroup)
    (hoperand : operator.category ∉ operand.categories) :
    ofCheck scope column parameter ⟨operator, operand⟩ =
      .error (.malformed (.operandMismatch operator column operand)) := by
  cases operand <;> cases hcategory : operator.category <;>
    simp_all [ofCheck, Operand.categories]

theorem ofCheck_of_column {name : String} (hoperator : operator.category = .columnCompare) :
    ofCheck scope column parameter ⟨operator, .column name⟩ =
      ((scope.column name).mapError FilterFault.name).map (.columns column operator) := by
  simp only [ofCheck, hoperator]
  cases scope.column name <;> rfl

theorem exists_ofCheck_of_suits {check : Check} (h : check.Suits scope) :
    ∃ predicate, ofCheck scope column parameter check = .ok predicate := by
  obtain ⟨operator, operand⟩ := check
  obtain ⟨-, hoperand, hcolumn⟩ := h
  simp only [ofCheck_eq_ok]
  cases operand with
  | scalar value => exact ⟨_, .compare (by simpa [Operand.categories] using hoperand)⟩
  | list values => exact ⟨_, .member (by simpa [Operand.categories] using hoperand)⟩
  | range low high => exact ⟨_, .range (by simpa [Operand.categories] using hoperand)⟩
  | column name =>
      obtain ⟨other, hother⟩ := hcolumn name rfl
      exact ⟨_, .columns (by simpa [Operand.categories] using hoperand) hother⟩

/-- A check is judged by its operator, then by the form of its operand, then by the column in it. -/
theorem judges_ofCheck (scope : Scope) (column : ColumnRef) (parameter : String)
    (check : Check) :
    (check.ObstacleAt scope column).Judges (check.Suits scope)
      (ofCheck scope column parameter check) := by
  obtain ⟨operator, operand⟩ := check
  by_cases hoperator : operator.category = .booleanGroup
  · rw [ofCheck_of_booleanGroup hoperator]
    refine ⟨fun hsuits => hsuits.operator hoperator, [0], .operator hoperator, ?_⟩
    rintro place fault (_ | _ | _)
    · exact .inl ⟨rfl, rfl⟩
    · exact .inr (by decide)
    · exact .inr (by decide)
  by_cases hoperand : operator.category ∈ operand.categories
  swap
  · rw [ofCheck_of_notMem hoperator hoperand]
    refine ⟨fun hsuits => hoperand hsuits.operand, [1], .operand hoperand, ?_⟩
    rintro place fault (hgroup | _ | _)
    · exact absurd hgroup hoperator
    · exact .inl ⟨rfl, rfl⟩
    · exact .inr (by decide)
  by_cases hcolumn : ∀ name, operand = .column name → scope.Names name
  · have hsuits : Check.Suits scope ⟨operator, operand⟩ := ⟨hoperator, hoperand, hcolumn⟩
    obtain ⟨predicate, hpredicate⟩ := exists_ofCheck_of_suits hsuits
    rw [hpredicate]
    refine ⟨hsuits, ?_⟩
    rintro place fault (hgroup | hmismatch | ⟨hname, hfault⟩)
    · exact hoperator hgroup
    · exact hmismatch hoperand
    · obtain ⟨other, hother⟩ := hcolumn _ hname
      simp [hother] at hfault
  · push Not at hcolumn
    obtain ⟨name, rfl, hunknown⟩ := hcolumn
    cases hname : scope.column name with
    | ok other => exact absurd ⟨other, hname⟩ hunknown
    | error found =>
        have hcategory : operator.category = .columnCompare := by
          simpa [Operand.categories] using hoperand
        rw [ofCheck_of_column hcategory, hname]
        refine ⟨fun hsuits => hunknown (hsuits.column name rfl), [2], .column rfl hname, ?_⟩
        rintro place fault (hgroup | hmismatch | ⟨hother, hfault⟩)
        · exact absurd hgroup hoperator
        · exact absurd hoperand hmismatch
        · obtain rfl := Operand.column.inj hother
          rw [hname] at hfault
          exact .inl ⟨rfl, congrArg _ (Except.error.inj hfault.symm)⟩

end Predicate

namespace Expr

/-- A bare value is a test with one check. -/
theorem ofTest_eq_map_mapM (column : ColumnRef) (name : String) (test : Test) :
    ofTest scope column name test =
      (test.checks.zipIdx.mapM fun check =>
        (Predicate.ofCheck scope column (partName name test.checks.length check.2) check.1).map
          leaf).map (ofParts .and) := by
  cases test with
  | every checks => rw [Test.checks_every, ofTest, ofChecks_eq_mapM]
  | equals value =>
      rw [Test.checks_equals, ofTest]
      rfl

theorem judges_ofTest (column : ColumnRef) (name : String) (test : Test) :
    (Findings.within (Check.ObstacleAt scope column) test.checks).Judges
      (∀ check ∈ test.checks, check.Suits scope) (ofTest scope column name test) := by
  rw [ofTest_eq_map_mapM]
  refine (Findings.judges_mapM_zipIdx fun check _ index => ?_).map _
  exact (Predicate.judges_ofCheck scope column _ check).map _

end Expr

namespace Formula

/-- Lowering judges the formula, whatever its outermost parts are called. -/
def Judged (scope : Scope) (formula : Formula) : Prop :=
  ∀ names, (formula.ObstacleAt scope).Judges (formula.Suits scope) (formula.parts scope names)

theorem judges_branchExprs {members : List Formula} {names : Nat → String}
    (hmembers : ∀ member ∈ members, member.Judged scope) :
    (Findings.within (ObstacleAt scope) members).Judges
      (∀ member ∈ members, member.Suits scope) (branchExprs scope names 0 members) := by
  rw [branchExprs_eq_mapM]
  refine Findings.judges_mapM_zipIdx fun member hmember index => ?_
  rw [toExpr_eq_map_parts]
  exact (hmembers member hmember _).map _

theorem judges_entryExpr {name : String} {entry : Entry}
    (hmembers : ∀ connective members, entry = .group connective members →
      ∀ member ∈ members, member.Judged scope) :
    (entry.ObstacleAt scope).Judges (entry.Suits scope) (entryExpr scope name entry) := by
  cases entry with
  | group connective members =>
      rw [entryExpr]
      refine ((judges_branchExprs (hmembers connective members rfl)).map _).congr ?_ ?_
      · exact Entry.suits_group.symm
      · exact fun place fault => Entry.obstacleAt_group.symm
  | column identifier test =>
      rw [entryExpr_column]
      refine ((Findings.judges_ofReader _).bind fun column hcolumn => ?_).congr
        Entry.suits_column.symm fun place fault => Entry.obstacleAt_column.symm
      rw [mapError_eq_ok] at hcolumn
      refine ((Expr.judges_ofTest column name test).congr Iff.rfl fun place fault => ?_).last
      simp [hcolumn]

theorem judged (formula : Formula) : formula.Judged scope := by
  induction formula using Formula.induction with
  | conjunction entries ih =>
      intro names
      rw [Formula.parts, entryExprs_eq_mapM]
      have hentries : ∀ entry ∈ entries, ∀ index,
          (entry.ObstacleAt scope).Judges (entry.Suits scope)
            (entryExpr scope (names index) entry) := by
        intro entry hentry index
        refine judges_entryExpr fun connective members hgroup => ?_
        exact ih connective members (hgroup ▸ hentry)
      exact (Findings.judges_mapM_zipIdx hentries).congr suits_conjunction.symm
        fun place fault => obstacleAt_conjunction.symm
  | disjunction branches ih =>
      intro names
      exact (judges_branchExprs ih).congr suits_disjunction.symm
        fun place fault => obstacleAt_disjunction.symm

theorem judges_restriction (scope : Scope) (space : String) (formula : Formula) :
    (formula.ObstacleAt scope).Judges (formula.Suits scope) (formula.restriction scope space) := by
  rw [restriction_eq_map_parts]
  exact (judged formula _).map _

/-- A formula is lowered exactly when nothing stands in its way, that is when it suits the scope.
Otherwise its first obstacle in document order is reported, whatever comes after it and whatever the
parameters are called. -/
theorem restriction_reports_first (scope : Scope) (space : String) (formula : Formula) :
    ((∃ restriction, formula.restriction scope space = .ok restriction) ↔
        formula.Suits scope) ∧
      (formula.Suits scope ↔ Findings.Clean (formula.ObstacleAt scope)) ∧
      ∀ fault, formula.restriction scope space = .error fault ↔
        Findings.First (formula.ObstacleAt scope) fault := by
  have hjudges := judges_restriction scope space formula
  exact ⟨hjudges.exists_ok_iff, hjudges.valid_iff_clean, fun fault => hjudges.eq_error_iff⟩

example :
    Formula.restriction (Scope.ofMain "u") "" (.conjunction [
      .group .or [.disjunction [], .conjunction [
        .column "age" (.every [⟨.gt, .scalar (.int 1)⟩, ⟨.between, .list []⟩, ⟨.or, .list []⟩])]],
      .column "v.age" (.equals .null)]) =
    .error (.malformed (.operandMismatch .between (.path "u" ["age"]) (.list []))) := by
  cbv

end Formula

end FilterSql
