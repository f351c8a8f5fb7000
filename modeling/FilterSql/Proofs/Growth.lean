import FilterSql.Proofs.Suitability
import FilterSql.Proofs.Ownership

/-! Scopes that know more aliases. A name that denotes a column keeps it when aliases are added, and
the only fault that can go away is that of an unknown alias. So lowering in a larger scope gives the
same expression or fails in the same way, unless an alias was unknown in the smaller one. A scope
grows with every declaration, accepted or not. -/

namespace FilterSql

/-! ### Agreement -/

/-- The second computation ends like the first, unless the first ends with an excused fault. -/
inductive AgreesUnless {ε α : Type} (excused : ε → Prop) : Except ε α → Except ε α → Prop where
  | same (result : Except ε α) : AgreesUnless excused result result
  | excused {fault : ε} {result' : Except ε α} (h : excused fault) :
      AgreesUnless excused (.error fault) result'

namespace AgreesUnless

variable {α β ε ε' : Type} {excused : ε → Prop} {result result' : Except ε α}

theorem bind {next next' : α → Except ε β} (h : AgreesUnless excused result result')
    (hnext : ∀ value, AgreesUnless excused (next value) (next' value)) :
    AgreesUnless excused (result >>= next) (result' >>= next') := by
  cases h with
  | excused h => exact .excused h
  | same =>
      cases result with
      | ok value => exact hnext value
      | error fault => exact .same _

theorem map (f : α → β) (h : AgreesUnless excused result result') :
    AgreesUnless excused (result.map f) (result'.map f) := by
  cases h with
  | same => exact .same _
  | excused h => exact .excused h

theorem mapError {excused' : ε' → Prop} {f : ε → ε'} (h : AgreesUnless excused result result')
    (hf : ∀ fault, excused fault → excused' (f fault)) :
    AgreesUnless excused' (result.mapError f) (result'.mapError f) := by
  cases h with
  | same => exact .same _
  | excused h => exact .excused (hf _ h)

theorem mapM {f f' : β → Except ε α} {members : List β}
    (h : ∀ member ∈ members, AgreesUnless excused (f member) (f' member)) :
    AgreesUnless excused (members.mapM f) (members.mapM f') := by
  induction members with
  | nil => exact .same _
  | cons member members ih =>
      rw [List.forall_mem_cons] at h
      rw [List.mapM_cons, List.mapM_cons]
      exact h.1.bind fun value => (ih h.2).bind fun values => .same _

theorem eq_ok (h : AgreesUnless excused result result') {value : α} (hvalue : result = .ok value) :
    result' = .ok value := by
  cases h with
  | same => exact hvalue
  | excused h => simp at hvalue

end AgreesUnless

/-! ### Larger scopes -/

/-- The second scope gives undotted names the same owner and knows all aliases of the first. -/
structure Scope.Grows (scope scope' : Scope) : Prop where
  owner : scope'.owner = scope.owner
  knows : ∀ aliasName, scope.knows aliasName = true → scope'.knows aliasName = true

def NameFault.IsUnknownAlias (fault : NameFault) : Prop :=
  ∃ aliasName text, fault = .unknownAlias aliasName text

def FilterFault.IsUnknownAlias (fault : FilterFault) : Prop :=
  ∃ found : NameFault, found.IsUnknownAlias ∧ fault = .name found

variable {scope scope' : Scope}

namespace Assembler

theorem grows_of_declareJoins {joins : List JoinRequest}
    (h : declareJoins scope joins = .ok scope') : scope.Grows scope' := by
  obtain ⟨howner, hknows, -, -⟩ := declareJoins_eq_ok h
  exact ⟨howner, fun aliasName hknown => (hknows aliasName).2 (.inl hknown)⟩

end Assembler

namespace Scope.Grows

theorem column (h : scope.Grows scope') (name : String) :
    AgreesUnless NameFault.IsUnknownAlias (scope.column name) (scope'.column name) := by
  unfold Scope.column ColumnRef.resolve
  rw [h.owner]
  cases Identifier.path name with
  | error fault => exact .same _
  | ok segments =>
      match segments with
      | [] => exact .same _
      | [_] => exact .same _
      | aliasName :: segment :: segments =>
          by_cases hknown : aliasName = scope.owner ∨ scope.knows aliasName = true
          · have hknown' : aliasName = scope.owner ∨ scope'.knows aliasName = true :=
              hknown.imp_right (h.knows aliasName)
            simp only [hknown, hknown', Bool.or_eq_true, decide_eq_true_eq, if_true]
            exact .same _
          · simp only [hknown, Bool.or_eq_true, decide_eq_true_eq, if_false]
            exact .excused ⟨aliasName, name, rfl⟩

theorem filterColumn (h : scope.Grows scope') (name : String) :
    AgreesUnless FilterFault.IsUnknownAlias ((scope.column name).mapError FilterFault.name)
      ((scope'.column name).mapError FilterFault.name) :=
  (h.column name).mapError fun fault hfault => ⟨fault, hfault, rfl⟩

/-! ### Lowering -/

theorem ofCheck (h : scope.Grows scope') (column : ColumnRef) (parameter : String)
    (check : Check) :
    AgreesUnless FilterFault.IsUnknownAlias (Predicate.ofCheck scope column parameter check)
      (Predicate.ofCheck scope' column parameter check) := by
  obtain ⟨operator, operand⟩ := check
  by_cases hcolumn : operator.category = .columnCompare ∧ ∃ name, operand = .column name
  · obtain ⟨hcategory, name, rfl⟩ := hcolumn
    rw [Predicate.ofCheck_of_column hcategory, Predicate.ofCheck_of_column hcategory]
    exact (h.filterColumn name).map _
  · -- only the column on the right is looked up
    have heq : Predicate.ofCheck scope column parameter ⟨operator, operand⟩ =
        Predicate.ofCheck scope' column parameter ⟨operator, operand⟩ := by
      cases operand <;> cases hcategory : operator.category <;>
        simp_all [Predicate.ofCheck]
    rw [heq]
    exact .same _

theorem ofTest (h : scope.Grows scope') (column : ColumnRef) (name : String) (test : Test) :
    AgreesUnless FilterFault.IsUnknownAlias (Expr.ofTest scope column name test)
      (Expr.ofTest scope' column name test) := by
  rw [Expr.ofTest_eq_map_mapM, Expr.ofTest_eq_map_mapM]
  refine (AgreesUnless.mapM fun check _ => ?_).map _
  exact (h.ofCheck column _ check.1).map _

end Scope.Grows

namespace Formula

/-- Lowering the formula agrees in the two scopes, whatever its outermost parts are called. -/
def Agrees (scope scope' : Scope) (formula : Formula) : Prop :=
  ∀ names, AgreesUnless FilterFault.IsUnknownAlias (formula.parts scope names)
    (formula.parts scope' names)

theorem Agrees.branchExprs {members : List Formula} {names : Nat → String}
    (hmembers : ∀ member ∈ members, member.Agrees scope scope') :
    AgreesUnless FilterFault.IsUnknownAlias (branchExprs scope names 0 members)
      (branchExprs scope' names 0 members) := by
  rw [branchExprs_eq_mapM, branchExprs_eq_mapM]
  refine AgreesUnless.mapM fun member hmember => ?_
  rw [toExpr_eq_map_parts, toExpr_eq_map_parts]
  exact (hmembers member.1 (List.fst_mem_of_mem_zipIdx hmember) _).map _

theorem Agrees.entryExpr (h : scope.Grows scope') {name : String} {entry : Entry}
    (hmembers : ∀ connective members, entry = .group connective members →
      ∀ member ∈ members, member.Agrees scope scope') :
    AgreesUnless FilterFault.IsUnknownAlias (entryExpr scope name entry)
      (entryExpr scope' name entry) := by
  cases entry with
  | column identifier test =>
      rw [entryExpr_column, entryExpr_column]
      exact (h.filterColumn identifier).bind fun column => h.ofTest column name test
  | group connective members =>
      rw [Formula.entryExpr, Formula.entryExpr]
      exact (branchExprs (hmembers connective members rfl)).map _

theorem agrees (h : scope.Grows scope') (formula : Formula) : formula.Agrees scope scope' := by
  induction formula using Formula.induction with
  | conjunction entries ih =>
      intro names
      rw [Formula.parts, Formula.parts, entryExprs_eq_mapM, entryExprs_eq_mapM]
      refine AgreesUnless.mapM fun entry hentry => Agrees.entryExpr h ?_
      intro connective members hgroup
      exact ih connective members (hgroup ▸ List.fst_mem_of_mem_zipIdx hentry)
  | disjunction branches ih => exact fun names => Agrees.branchExprs ih

theorem restriction_agrees (h : scope.Grows scope') (space : String) (formula : Formula) :
    AgreesUnless FilterFault.IsUnknownAlias (formula.restriction scope space)
      (formula.restriction scope' space) := by
  rw [restriction_eq_map_parts, restriction_eq_map_parts]
  exact (agrees h formula _).map _

end Formula

theorem Filter.restriction_agrees (h : scope.Grows scope') (wildcards : Wildcards)
    (space : String) (filter : Filter) :
    AgreesUnless FilterFault.IsUnknownAlias (filter.restriction wildcards scope space)
      (filter.restriction wildcards scope' space) :=
  AgreesUnless.bind (.same _) fun formula => formula.restriction_agrees h space

/-! ### Declarations -/

namespace Scope

/-- The scope after a declaration. One that is refused leaves it as it was. -/
def declaring (scope : Scope) (aliasName : String) : Scope :=
  match scope.declare aliasName with
  | .ok (_, declared) => declared
  | .error _ => scope

/-- The scope after declarations one by one, whether they are refused or not. -/
def declaringAll (scope : Scope) (aliases : List String) : Scope := aliases.foldl declaring scope

theorem declaring_eq (scope : Scope) (aliasName : String) :
    scope.declaring aliasName = scope ∨
      IsWord aliasName ∧ scope.knows aliasName = false ∧
        scope.declaring aliasName = scope.extend aliasName := by
  unfold declaring
  cases h : scope.declare aliasName with
  | error fault => exact .inl rfl
  | ok declared =>
      obtain ⟨hword, ⟨-, -, heq⟩ | ⟨hfree, -, heq⟩⟩ := declare_eq_ok.1 h
      · exact .inl heq
      · exact .inr ⟨hword, hfree, heq⟩

theorem Grows.trans {scope'' : Scope} (h : scope.Grows scope') (h' : scope'.Grows scope'') :
    scope.Grows scope'' :=
  ⟨h'.owner.trans h.owner, fun aliasName hknown => h'.knows aliasName (h.knows aliasName hknown)⟩

theorem grows_declaring (scope : Scope) (aliasName : String) :
    scope.Grows (scope.declaring aliasName) := by
  rcases declaring_eq scope aliasName with heq | ⟨-, -, heq⟩
  · rw [heq]
    exact ⟨rfl, fun _ hknown => hknown⟩
  · rw [heq]
    exact ⟨rfl, fun _ hknown => knows_extend.2 (.inl hknown)⟩

theorem grows_declaringAll (scope : Scope) (aliases : List String) :
    scope.Grows (scope.declaringAll aliases) := by
  induction aliases generalizing scope with
  | nil => exact ⟨rfl, fun _ hknown => hknown⟩
  | cons aliasName aliases ih => exact (grows_declaring scope aliasName).trans (ih _)

namespace Grows

/-- Both scopes get the same owner, and activating an alias declares nothing. -/
theorem activate (h : scope.Grows scope') (aliasName : String) :
    (scope.activate aliasName).Grows (scope'.activate aliasName) :=
  ⟨rfl, h.knows⟩

theorem selected (h : scope.Grows scope') (name : String) :
    AgreesUnless NameFault.IsUnknownAlias (scope.selected name) (scope'.selected name) := by
  unfold Scope.selected
  split
  · rw [h.owner]
    exact .same _
  · cases hword : Identifier.word _ with
    | error fault => exact .same _
    | ok aliasName =>
        by_cases hknown : scope.knows aliasName = true
        · simp only [hknown, h.knows aliasName hknown, if_true]
          exact .same _
        · simp only [hknown]
          exact .excused ⟨aliasName, name, rfl⟩
  · exact h.column name

end Grows

/-- Whatever name or formula the first scope gives a result for has the same result in the second,
and no other fault goes away than that of an unknown alias. -/
structure AgreesWith (scope scope' : Scope) : Prop where
  column : ∀ name,
    AgreesUnless NameFault.IsUnknownAlias (scope.column name) (scope'.column name)
  selected : ∀ name,
    AgreesUnless NameFault.IsUnknownAlias (scope.selected name) (scope'.selected name)
  restriction : ∀ space formula, AgreesUnless FilterFault.IsUnknownAlias
    (Formula.restriction scope space formula) (Formula.restriction scope' space formula)

theorem Grows.agreesWith (h : scope.Grows scope') : scope.AgreesWith scope' :=
  ⟨h.column, h.selected, fun space formula => formula.restriction_agrees h space⟩

/-- Declaring more aliases changes nothing that is settled, neither for the names of the scope nor
for those that are read under an active join. -/
theorem agreesWith_declaringAll (scope : Scope) (aliases : List String) :
    scope.AgreesWith (scope.declaringAll aliases) ∧
      ∀ aliasName, (scope.activate aliasName).AgreesWith
        ((scope.declaringAll aliases).activate aliasName) := by
  have hgrows := grows_declaringAll scope aliases
  exact ⟨hgrows.agreesWith, fun aliasName => (hgrows.activate aliasName).agreesWith⟩

/-- An unknown alias is what more declarations may settle. -/
example :
    (ofMain "users").column "orders.id" = .error (.unknownAlias "orders" "orders.id") ∧
      ((ofMain "users").declaringAll ["a b", "orders", "users"]).column "orders.id" =
        .ok (.path "orders" ["id"]) :=
  ⟨by cbv, by cbv⟩

end Scope

end FilterSql
