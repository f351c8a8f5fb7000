import FilterSql.Formula.OfFilter
import FilterSql.Formula.Restriction
import FilterSql.Proofs.Sequence

/-! Filters and formulas as trees with lists of members. Reading a filter and lowering a formula
treat the members of a list one after the other, each under a name that depends on its position
only, so a property of all trees is proved once for a list of members. -/

namespace FilterSql

/-- Only the lists that stand beside a key hold filters again; what stands beside a column is read
as a test. -/
@[elab_as_elim]
theorem Filter.induction {motive : Filter → Prop} (scalar : ∀ value, motive (.scalar value))
    (list : ∀ items, (∀ item ∈ items, motive item) → motive (.list items))
    (object : ∀ entries, (∀ key items, (key, Filter.list items) ∈ entries →
      ∀ item ∈ items, motive item) → motive (.object entries)) :
    ∀ filter, motive filter
  | .scalar value => scalar value
  | .list items => list items fun item _ => Filter.induction scalar list object item
  | .object entries =>
      object entries fun _ _ _ item _ => Filter.induction scalar list object item
termination_by filter => sizeOf filter
decreasing_by
  · rename_i hitem
    have hitems := List.sizeOf_lt_of_mem hitem
    simp only [Filter.list.sizeOf_spec]
    omega
  · rename_i hentry hitem
    have hitems := List.sizeOf_lt_of_mem hitem
    have hentries := List.sizeOf_lt_of_mem hentry
    simp only [Filter.object.sizeOf_spec, Filter.list.sizeOf_spec, Prod.mk.sizeOf_spec]
      at hentries ⊢
    omega

/-- The members of a group are formulas below the conjunction that has the group as an entry. -/
@[elab_as_elim]
theorem Formula.induction {motive : Formula → Prop}
    (conjunction : ∀ entries, (∀ connective members, Entry.group connective members ∈ entries →
      ∀ member ∈ members, motive member) → motive (.conjunction entries))
    (disjunction : ∀ branches, (∀ branch ∈ branches, motive branch) →
      motive (.disjunction branches)) :
    ∀ formula, motive formula
  | .conjunction entries =>
      conjunction entries fun _ _ _ member _ => Formula.induction conjunction disjunction member
  | .disjunction branches =>
      disjunction branches fun branch _ => Formula.induction conjunction disjunction branch
termination_by formula => sizeOf formula
decreasing_by
  · rename_i hentry hmember
    have hmembers := List.sizeOf_lt_of_mem hmember
    have hgroup := List.sizeOf_lt_of_mem hentry
    simp only [Entry.group.sizeOf_spec, Formula.conjunction.sizeOf_spec] at hgroup ⊢
    omega
  · rename_i hbranch
    have hbranches := List.sizeOf_lt_of_mem hbranch
    simp only [Formula.disjunction.sizeOf_spec]
    omega

theorem Formula.ofItems_eq_mapM (wildcards : Wildcards) (items : List Filter) :
    ofItems wildcards items = items.mapM (ofNonempty wildcards) := by
  induction items with
  | nil => rfl
  | cons item items ih => rw [ofItems, ih, List.mapM_cons]

/-- Reads one entry of a filter object. -/
def Entry.ofPair (wildcards : Wildcards) (pair : String × Filter) : Except FilterFault Entry := do
  match ← EntryKey.ofText pair.1 with
  | .column name => (Test.ofFilter wildcards name pair.2).map (Entry.column name)
  | .group connective =>
    (Formula.ofMembers wildcards connective pair.2).map (Entry.group connective)

theorem Formula.ofEntries_eq_mapM (wildcards : Wildcards) (entries : List (String × Filter)) :
    ofEntries wildcards entries = entries.mapM (Entry.ofPair wildcards) := by
  induction entries with
  | nil => rfl
  | cons entry entries ih =>
      obtain ⟨key, written⟩ := entry
      rw [ofEntries, ih, List.mapM_cons, Entry.ofPair]
      cases EntryKey.ofText key with
      | error fault => rfl
      | ok key => cases key <;> rfl

namespace Expr

theorem partsSql_eq_map (parts : List Expr) : partsSql parts = parts.map sql := by
  induction parts with
  | nil => rfl
  | cons part parts ih => rw [partsSql, ih, List.map_cons]

theorem partsArguments_eq_flatMap (parts : List Expr) :
    partsArguments parts = parts.flatMap arguments := by
  induction parts with
  | nil => rfl
  | cons part parts ih => rw [partsArguments, ih, List.flatMap_cons]

theorem ofChecks_eq_mapM (scope : Scope) (column : ColumnRef) (names : Nat → String)
    (index : Nat) (checks : List Check) :
    ofChecks scope column names index checks =
      (checks.zipIdx index).mapM fun check =>
        (Predicate.ofCheck scope column (names check.2) check.1).map Expr.leaf := by
  induction checks generalizing index with
  | nil => rfl
  | cons check checks ih =>
      rw [ofChecks, ih, List.zipIdx_cons, List.mapM_cons]
      cases Predicate.ofCheck scope column (names index) check with
      | error fault => rfl
      | ok predicate => rfl

end Expr

namespace Formula

theorem branchExprs_eq_mapM (scope : Scope) (names : Nat → String) (index : Nat)
    (branches : List Formula) :
    branchExprs scope names index branches =
      (branches.zipIdx index).mapM fun branch => toExpr scope (names branch.2) branch.1 := by
  induction branches generalizing index with
  | nil => rfl
  | cons branch branches ih => rw [branchExprs, ih, List.zipIdx_cons, List.mapM_cons]

theorem entryExprs_eq_mapM (scope : Scope) (names : Nat → String) (index : Nat)
    (entries : List Entry) :
    entryExprs scope names index entries =
      (entries.zipIdx index).mapM fun entry => entryExpr scope (names entry.2) entry.1 := by
  induction entries generalizing index with
  | nil => rfl
  | cons entry entries ih => rw [entryExprs, ih, List.zipIdx_cons, List.mapM_cons]

theorem entryExpr_column (scope : Scope) (name identifier : String) (test : Test) :
    entryExpr scope name (.column identifier test) =
      (scope.column identifier).mapError FilterFault.name >>= fun column =>
        Expr.ofTest scope column name test := by
  rw [entryExpr]
  cases scope.column identifier <;> rfl

def connective : Formula → Connective
  | .conjunction _ => .and
  | .disjunction _ => .or

/-- The expressions of the outermost parts, which are the same at the root and below it but for
their names. -/
def parts (scope : Scope) (names : Nat → String) : Formula → Except FilterFault (List Expr)
  | .conjunction entries => entryExprs scope names 0 entries
  | .disjunction branches => branchExprs scope names 0 branches

theorem length_parts {scope : Scope} {names : Nat → String} {formula : Formula} {parts : List Expr}
    (h : formula.parts scope names = .ok parts) : parts.length = formula.length := by
  cases formula with
  | conjunction entries =>
      rw [Formula.parts, entryExprs_eq_mapM, mapM_eq_ok] at h
      simpa [length] using h.length_eq.symm
  | disjunction branches =>
      rw [Formula.parts, branchExprs_eq_mapM, mapM_eq_ok] at h
      simpa [length] using h.length_eq.symm

theorem toExpr_eq_map_parts (scope : Scope) (name : String) (formula : Formula) :
    formula.toExpr scope name =
      (formula.parts scope (partName name formula.length)).map
        (Expr.ofParts formula.connective) := by
  cases formula <;> rfl

theorem restriction_eq_map_parts (scope : Scope) (space : String) (formula : Formula) :
    formula.restriction scope space =
      (formula.parts scope (rootName space)).map (⟨formula.connective, ·⟩) := by
  cases formula <;> rfl

end Formula

end FilterSql
