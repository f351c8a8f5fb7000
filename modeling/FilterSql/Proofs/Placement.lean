import FilterSql.Proofs.Column
import FilterSql.Proofs.Parts

/-! What lowering gives. An expression is placed under a name when every predicate in it has columns
of the scope, an operator that fits its arguments and a parameter with the name of its place: a part
among several appends its position to the name of its parent. Every fact about generated SQL below
is read off this description. -/

namespace FilterSql

/-- The scope gives the reference for some identifier. -/
def Scope.Gives (scope : Scope) (column : ColumnRef) : Prop :=
  ∃ identifier, scope.column identifier = .ok column

theorem Scope.Gives.isSingle {scope : Scope} {column : ColumnRef} (h : scope.Gives column)
    (howner : IsWord scope.owner) : column.IsSingle :=
  h.elim fun _ hcolumn => isSingle_of_column howner hcolumn

theorem Scope.Gives.isPath {scope : Scope} {column : ColumnRef} (h : scope.Gives column)
    (howner : MadeOf isWordChar scope.owner) : MadeOf isPathChar column.sql :=
  h.elim fun _ hcolumn => ColumnRef.isPath_of_resolve howner hcolumn

inductive Predicate.Placed (scope : Scope) (name : String) : Predicate → Prop where
  | compare {column : ColumnRef} {operator : Operator} {value : Scalar}
      (hcolumn : scope.Gives column)
      (hoperator : operator.category = .comparison ∨ operator.category = .pattern ∨
        operator.category = .regex) : Placed scope name (.compare column operator name value)
  | member {column : ColumnRef} {operator : Operator} {values : List Scalar}
      (hcolumn : scope.Gives column) (hoperator : operator.category = .membership) :
      Placed scope name (.member column operator name values)
  | range {column : ColumnRef} {operator : Operator} {low high : Scalar}
      (hcolumn : scope.Gives column) (hoperator : operator.category = .range) :
      Placed scope name (.range column operator name low high)
  | columns {column other : ColumnRef} {operator : Operator} (hcolumn : scope.Gives column)
      (hoperator : operator.category = .columnCompare) (hother : scope.Gives other) :
      Placed scope name (.columns column operator other)

inductive Expr.Placed (scope : Scope) : String → Expr → Prop where
  | leaf {name : String} {predicate : Predicate} (h : predicate.Placed scope name) :
      Placed scope name (.leaf predicate)
  | ofParts {name : String} (connective : Connective) {parts : List Expr}
      (h : ∀ part ∈ parts.zipIdx, Placed scope (partName name parts.length part.2) part.1) :
      Placed scope name (Expr.ofParts connective parts)

/-- The parts stand under the numbers of the name space. -/
def Restriction.Placed (scope : Scope) (space : String) (restriction : Restriction) : Prop :=
  ∀ part ∈ restriction.parts.zipIdx, part.1.Placed scope (rootName space part.2)

variable {scope : Scope}

/-- The predicate is what the check becomes on the column, under the name. -/
inductive Predicate.Lowered (scope : Scope) (column : ColumnRef) (name : String) :
    Check → Predicate → Prop where
  | compare {operator : Operator} {value : Scalar}
      (hoperator : operator.category = .comparison ∨ operator.category = .pattern ∨
        operator.category = .regex) :
      Lowered scope column name ⟨operator, .scalar value⟩ (.compare column operator name value)
  | member {operator : Operator} {values : List Scalar}
      (hoperator : operator.category = .membership) :
      Lowered scope column name ⟨operator, .list values⟩ (.member column operator name values)
  | range {operator : Operator} {low high : Scalar} (hoperator : operator.category = .range) :
      Lowered scope column name ⟨operator, .range low high⟩ (.range column operator name low high)
  | columns {operator : Operator} {identifier : String} {other : ColumnRef}
      (hoperator : operator.category = .columnCompare)
      (hother : scope.column identifier = .ok other) :
      Lowered scope column name ⟨operator, .column identifier⟩ (.columns column operator other)

theorem Predicate.ofCheck_eq_ok {column : ColumnRef} {name : String} {check : Check}
    {predicate : Predicate} :
    ofCheck scope column name check = .ok predicate ↔
      Lowered scope column name check predicate := by
  constructor
  · intro h
    obtain ⟨operator, operand⟩ := check
    simp only [ofCheck] at h
    split at h
    · next hcategory =>
        obtain rfl := Except.ok.inj h
        exact .compare (.inl hcategory)
    · next hcategory =>
        obtain rfl := Except.ok.inj h
        exact .compare (.inr (.inl hcategory))
    · next hcategory =>
        obtain rfl := Except.ok.inj h
        exact .compare (.inr (.inr hcategory))
    · next hcategory =>
        obtain rfl := Except.ok.inj h
        exact .member hcategory
    · next hcategory =>
        obtain rfl := Except.ok.inj h
        exact .range hcategory
    · next identifier hcategory =>
        split at h
        · next other hother =>
            obtain rfl := Except.ok.inj h
            exact .columns hcategory hother
        · simp at h
    · simp at h
    · simp at h
  · rintro (hoperator | hoperator | hoperator | ⟨hoperator, hother⟩)
    · rcases hoperator with hoperator | hoperator | hoperator <;> simp [ofCheck, hoperator]
    · simp [ofCheck, hoperator]
    · simp [ofCheck, hoperator]
    · simp [ofCheck, hoperator, hother]

theorem Predicate.placed_of_ofCheck {column : ColumnRef} {name : String} {check : Check}
    {predicate : Predicate} (hcolumn : scope.Gives column)
    (h : ofCheck scope column name check = .ok predicate) : predicate.Placed scope name := by
  cases ofCheck_eq_ok.1 h with
  | compare hoperator => exact .compare hcolumn hoperator
  | member hoperator => exact .member hcolumn hoperator
  | range hoperator => exact .range hcolumn hoperator
  | @columns _ identifier _ hoperator hother =>
      exact .columns hcolumn hoperator ⟨identifier, hother⟩

theorem Expr.placed_of_ofTest {column : ColumnRef} {name : String} {test : Test} {part : Expr}
    (hcolumn : scope.Gives column) (h : ofTest scope column name test = .ok part) :
    part.Placed scope name := by
  cases test with
  | equals value =>
      rw [ofTest] at h
      obtain ⟨predicate, hpredicate, rfl⟩ := map_eq_ok.1 h
      exact .leaf (Predicate.placed_of_ofCheck hcolumn hpredicate)
  | every checks =>
      rw [ofTest] at h
      obtain ⟨parts, hparts, rfl⟩ := map_eq_ok.1 h
      rw [ofChecks_eq_mapM, mapM_eq_ok] at hparts
      have hlength : checks.length = parts.length := by simpa using hparts.length_eq
      apply Placed.ofParts
      intro part hpart
      obtain ⟨check, -, hcheck⟩ := exists_mem_of_forall₂_zipIdx hparts part hpart
      obtain ⟨predicate, hpredicate, hleaf⟩ := map_eq_ok.1 hcheck
      rw [← hleaf, ← hlength]
      exact .leaf (Predicate.placed_of_ofCheck hcolumn hpredicate)

namespace Formula

/-- The outermost parts of the formula are placed, whatever their names. -/
def PartsPlaced (scope : Scope) (formula : Formula) : Prop :=
  ∀ names parts, formula.parts scope names = .ok parts →
    ∀ part ∈ parts.zipIdx, part.1.Placed scope (names part.2)

theorem PartsPlaced.toExpr {formula : Formula} (hparts : formula.PartsPlaced scope) {name : String}
    {expr : Expr} (h : formula.toExpr scope name = .ok expr) : expr.Placed scope name := by
  rw [toExpr_eq_map_parts] at h
  obtain ⟨parts, hexprs, rfl⟩ := map_eq_ok.1 h
  apply Expr.Placed.ofParts
  rw [length_parts hexprs]
  exact hparts _ _ hexprs

theorem placed_of_branchExprs {members : List Formula} {names : Nat → String} {parts : List Expr}
    (hmembers : ∀ member ∈ members, member.PartsPlaced scope)
    (h : branchExprs scope names 0 members = .ok parts) :
    ∀ part ∈ parts.zipIdx, part.1.Placed scope (names part.2) := by
  rw [branchExprs_eq_mapM, mapM_eq_ok] at h
  intro part hpart
  obtain ⟨member, hmember, hexpr⟩ := exists_mem_of_forall₂_zipIdx h part hpart
  exact (hmembers member hmember).toExpr hexpr

theorem length_of_branchExprs {members : List Formula} {names : Nat → String} {parts : List Expr}
    (h : branchExprs scope names 0 members = .ok parts) : parts.length = members.length := by
  have hparts : (Formula.disjunction members).parts scope names = .ok parts := h
  exact length_parts hparts

theorem partsPlaced (formula : Formula) : formula.PartsPlaced scope := by
  induction formula using Formula.induction with
  | conjunction entries ih =>
      intro names parts h
      rw [Formula.parts, entryExprs_eq_mapM, mapM_eq_ok] at h
      intro part hpart
      obtain ⟨entry, hentry, hexpr⟩ := exists_mem_of_forall₂_zipIdx h part hpart
      cases entry with
      | column identifier test =>
          simp only [entryExpr] at hexpr
          split at hexpr
          · next column hcolumn => exact Expr.placed_of_ofTest ⟨identifier, hcolumn⟩ hexpr
          · simp at hexpr
      | group connective members =>
          rw [entryExpr] at hexpr
          obtain ⟨exprs, hexprs, hpart⟩ := map_eq_ok.1 hexpr
          rw [← hpart]
          apply Expr.Placed.ofParts
          rw [length_of_branchExprs hexprs]
          exact placed_of_branchExprs (ih connective members hentry) hexprs
  | disjunction branches ih =>
      intro names parts h
      exact placed_of_branchExprs ih h

theorem placed_of_restriction {formula : Formula} {space : String} {restriction : Restriction}
    (h : formula.restriction scope space = .ok restriction) : restriction.Placed scope space := by
  rw [restriction_eq_map_parts] at h
  obtain ⟨parts, hparts, rfl⟩ := map_eq_ok.1 h
  exact partsPlaced formula _ _ hparts

end Formula

end FilterSql
