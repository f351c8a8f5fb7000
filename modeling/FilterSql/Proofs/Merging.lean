import FilterSql.Proofs.Positional

/-! Merging the tables of a statement. Each condition of a request binds its parameters in a name
space of its own: those of the main filter start with a digit, those of a join with its number
between underscores. So the merged table is the tables of the conditions one after the other, also
when the conditions are the same, and every name keeps its argument. -/

namespace FilterSql

/-- The main condition and those of the joins, in their order. -/
def Select.conditions (select : Select) : List Restriction :=
  select.filter :: select.joins.map Join.condition

namespace Assembler

/-- The main condition and those of the joins, in the order of the request. -/
def conditions (assembler : Assembler) (request : Request) : Except Fault (List Restriction) := do
  let scope ← declareJoins (← assembler.mainScope) request.joins
  let filter ← assembler.filterRestriction scope request.filter
  let joins ← request.joins.zipIdx.mapM fun join => assembler.joinCondition scope join.2 join.1
  return filter :: joins

theorem Stages.conditions {assembler : Assembler} {request : Request} {main scope : Scope}
    {select : Select} (h : assembler.Stages request main scope select) :
    assembler.conditions request = .ok select.conditions := by
  have hjoins := joinConditions_of_joinClauses h.joins
  refine bind_eq_ok.2 ⟨main, h.opened, bind_eq_ok.2 ⟨scope, h.declared, ?_⟩⟩
  exact bind_eq_ok.2 ⟨select.filter, h.filter, bind_eq_ok.2 ⟨_, hjoins, rfl⟩⟩

end Assembler

theorem Bindings.mem_entries_of_get? {bindings : Bindings} {name : String} {argument : Argument}
    (h : bindings.get? name = some argument) : (name, argument) ∈ bindings.entries := by
  obtain ⟨before, after, hentries, -⟩ := List.lookup_eq_some_iff.1 h
  rw [hentries]
  exact List.mem_append_right before List.mem_cons_self

namespace Select

variable {scope : Scope} {select : Select}

theorem IsChecked.exists_placed (h : select.IsChecked scope) {condition : Restriction}
    (hcondition : condition ∈ select.conditions) :
    ∃ scope space, condition.Placed scope space := by
  rw [conditions, List.mem_cons] at hcondition
  rcases hcondition with rfl | hcondition
  · exact ⟨scope, "", h.filter⟩
  · obtain ⟨join, hjoin, rfl⟩ := List.mem_map.1 hcondition
    obtain ⟨ordinal, hchecked⟩ := h.exists_join hjoin
    exact ⟨_, _, hchecked.condition⟩

/-- The merged table is the tables of the conditions one after the other. -/
theorem IsChecked.entries_eq_flatMap (h : select.IsChecked scope) :
    select.bindings.entries =
      select.conditions.flatMap fun condition => condition.bindings.entries := by
  have harguments : (select.conditions.flatMap fun condition => condition.bindings.entries) =
      select.conditions.flatMap Restriction.arguments := by
    apply List.flatMap_congr
    intro condition hcondition
    obtain ⟨scope, space, hplaced⟩ := h.exists_placed hcondition
    exact hplaced.entries_bindings
  rw [h.entries_bindings, harguments, conditions, List.flatMap_cons, List.flatMap_map,
    joinArguments]

theorem IsChecked.names_nodup (h : select.IsChecked scope) : select.bindings.names.Nodup := by
  rw [Bindings.names, h.entries_bindings]
  exact h.parameters_nodup

theorem IsChecked.names_disjoint (h : select.IsChecked scope) :
    select.conditions.Pairwise fun condition other =>
      condition.bindings.names.Disjoint other.bindings.names := by
  have hnames : select.bindings.names =
      select.conditions.flatMap fun condition => condition.bindings.names := by
    rw [Bindings.names, h.entries_eq_flatMap, List.map_flatMap]
    rfl
  have hnodup := h.names_nodup
  rw [hnames, List.nodup_flatMap] at hnodup
  exact hnodup.2

theorem IsChecked.get?_of_condition (h : select.IsChecked scope) {condition : Restriction}
    (hcondition : condition ∈ select.conditions) {name : String} {argument : Argument}
    (hname : condition.bindings.get? name = some argument) :
    select.bindings.get? name = some argument := by
  apply Bindings.get?_eq_some_of_mem h.names_nodup
  rw [h.entries_eq_flatMap, List.mem_flatMap]
  exact ⟨condition, hcondition, Bindings.mem_entries_of_get? hname⟩

end Select

namespace Assembler

/-- The parameters of a statement are those of the main condition followed by those of the join
conditions in the order of the request. No two of these tables share a name, so merging them loses
no parameter and changes no argument. -/
theorem bindings_of_assemble {assembler : Assembler} {request : Request} {select : Select}
    (h : assembler.assemble request = .ok select) :
    assembler.conditions request = .ok select.conditions ∧
      (select.bindings.entries =
        select.conditions.flatMap fun condition => condition.bindings.entries) ∧
      (select.conditions.Pairwise fun condition other =>
        condition.bindings.names.Disjoint other.bindings.names) ∧
      (∀ condition ∈ select.conditions, ∀ name argument,
        condition.bindings.get? name = some argument →
          select.bindings.get? name = some argument) ∧
      select.bindings.size =
        (select.conditions.map fun condition => condition.bindings.size).sum := by
  obtain ⟨main, scope, hstages⟩ := assemble_eq_ok.1 h
  have hchecked := hstages.isChecked
  refine ⟨hstages.conditions, hchecked.entries_eq_flatMap, hchecked.names_disjoint, ?_, ?_⟩
  · intro condition hcondition name argument hname
    exact hchecked.get?_of_condition hcondition hname
  · rw [Bindings.size, hchecked.entries_eq_flatMap, List.length_flatMap]
    rfl

/-- Twelve joins with the condition of the main filter, so ordinals have one digit or two. -/
theorem bindings_of_assemble_identical :
    let filter := Filter.object [("id", .scalar (.int 7)), ("age", .scalar (.int 7))]
    let join := fun ordinal : Nat =>
      (⟨.left, "orders", some ("o" ++ toString ordinal), some filter⟩ : JoinRequest)
    let request : Request := { Request.empty with
      select := ["id"]
      filter := some filter
      joins := (List.range 12).map join }
    ∃ select, (ofTable "users").assemble request = .ok select ∧
      select.bindings.names = ["0", "1"] ++ (List.range 12).flatMap (fun ordinal =>
        ["J_" ++ toString ordinal ++ "_0", "J_" ++ toString ordinal ++ "_1"]) ∧
      (select.conditions.Pairwise fun condition other =>
        condition.bindings.names.Disjoint other.bindings.names) ∧
      select.bindings.size =
        (select.conditions.map fun condition => condition.bindings.size).sum := by
  intro filter join request
  obtain ⟨select, hselect, hnames⟩ : ∃ select, (ofTable "users").assemble request = .ok select ∧
      select.bindings.names = ["0", "1"] ++ (List.range 12).flatMap fun ordinal =>
        ["J_" ++ toString ordinal ++ "_0", "J_" ++ toString ordinal ++ "_1"] :=
    ⟨_, by cbv, by cbv⟩
  obtain ⟨-, -, hdisjoint, -, hsize⟩ := bindings_of_assemble hselect
  exact ⟨select, hselect, hnames, hdisjoint, hsize⟩

end Assembler

end FilterSql
