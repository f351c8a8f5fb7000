import FilterSql.Proofs.Truth
import FilterSql.Proofs.Written

/-! Reading a filter and lowering it gives an expression of the same truth. What operators and names
say in a filter is what they are lowered to. The induction follows the written filter: an entry that
names a column is settled by its test, and the members of a list keep their truth whatever their
parameters are called. -/

namespace FilterSql

variable {wildcards : Wildcards} {scope : Scope} {holds : Fact → Bool}

/-! ### What operators and names say -/

def Operator.Category.side? : Operator.Category → Option Filter.Side
  | .comparison | .regex => some .value
  | .pattern => some .pattern
  | .range => some .pair
  | .membership => some .list
  | .columnCompare => some .column
  | .booleanGroup => none

/-- A token says in a filter what its operator is lowered to. -/
theorem Filter.lookup_comparisons {token : String} {operator : Operator} {side : Side}
    (htoken : Operator.ofToken? token = some operator)
    (hside : operator.category.side? = some side) :
    comparisons.lookup token = some (operator.sql, side) := by
  rcases Operator.ofToken?_eq_some htoken with ⟨rfl, rfl⟩ | rfl
  · cases hside
    rfl
  · cases operator <;> cases hside <;> rfl

theorem Scalar.inPattern?_eq_patternText? (value : Scalar) :
    value.inPattern? = value.patternText? := by
  cases value with
  | bool value => cases value <;> rfl
  | _ => rfl

theorem Filter.values?_map_scalar (values : List Scalar) :
    values? (values.map .scalar) = some values := by
  induction values with
  | nil => rfl
  | cons value values ih => rw [List.map_cons, values?, ih, Option.map_some]

/-- A name that the scope accepts is given the column that it says. -/
theorem Scope.column_eq_named {name : String} {column : ColumnRef}
    (h : scope.column name = .ok column) : column = .named scope name := by
  unfold Scope.column ColumnRef.resolve at h
  split at h
  · contradiction
  · next aliasName segment segments hpath =>
      obtain ⟨-, hpieces⟩ := Identifier.path_eq_ok_iff.1 hpath
      split at h
      · obtain rfl := Except.ok.inj h
        rw [ColumnRef.named, ← hpieces]
      · contradiction
  · next segments hundotted hpath =>
      obtain ⟨-, hpieces⟩ := Identifier.path_eq_ok_iff.1 hpath
      obtain rfl := Except.ok.inj h
      rw [ColumnRef.named, ← hpieces]
      split
      · exact (hundotted _ _ _ rfl).elim
      · rfl

/-! ### Predicates -/

theorem Predicate.fact_of_ofCheck {column : ColumnRef} {name : String} {operator : Operator}
    {written : Filter} {operand : Operand} {predicate : Predicate}
    (hwritten : Operand.Written wildcards operator written operand)
    (h : ofCheck scope column name ⟨operator, operand⟩ = .ok predicate) :
    ∃ side comparand, operator.category.side? = some side ∧
      Comparand.ofFilter? wildcards scope side written = some comparand ∧
      predicate.fact = ⟨column, operator.sql, comparand⟩ := by
  rw [ofCheck_eq_ok] at h
  have hside : ∀ {category : Operator.Category}, operator.category = category →
      operator.category.side? = category.side? := fun hcategory => by rw [hcategory]
  cases hwritten with
  | value hcategory =>
      cases h with
      | compare => exact ⟨.value, _, hcategory.elim hside hside, rfl, rfl⟩
  | @pattern value text hcategory htext =>
      have hcomparand : Comparand.ofFilter? wildcards scope .pattern (.scalar value) =
          some (.one (.text (wildcards.before ++ text ++ wildcards.after))) := by
        rw [Comparand.ofFilter?, Scalar.inPattern?_eq_patternText?, htext, Option.map_some]
      cases h with
      | compare => exact ⟨.pattern, _, hside hcategory, hcomparand, rfl⟩
  | range hcategory =>
      cases h with
      | range => exact ⟨.pair, _, hside hcategory, rfl, rfl⟩
  | @list items values hcategory hitems =>
      obtain rfl := Filter.mapM_scalar?_eq_some.1 hitems
      have hcomparand : Comparand.ofFilter? wildcards scope .list (.list (values.map .scalar)) =
          some (.many values) := by
        rw [Comparand.ofFilter?, Filter.values?_map_scalar, Option.map_some]
      cases h with
      | member => exact ⟨.list, _, hside hcategory, hcomparand, rfl⟩
  | column hcategory =>
      cases h with
      | columns hoperator hother =>
          obtain rfl := Scope.column_eq_named hother
          exact ⟨.column, _, hside hcategory, rfl, rfl⟩

theorem Filter.checkTruth_eq_some {identifier name : String} {column : ColumnRef}
    {entry : String × Filter} {check : Check} {predicate : Predicate}
    (hcheck : Check.ofEntry wildcards identifier entry = .ok check)
    (hpredicate : Predicate.ofCheck scope column name check = .ok predicate) :
    checkTruth wildcards scope holds column entry = some (holds predicate.fact) := by
  obtain ⟨htoken, hwritten⟩ := Check.ofEntry_eq_ok hcheck
  obtain ⟨side, comparand, hside, hcomparand, hfact⟩ :=
    Predicate.fact_of_ofCheck hwritten hpredicate
  simp [checkTruth, lookup_comparisons htoken hside, hcomparand, hfact]

/-- Members that are read and lowered one by one to parts of the same truth are so as a list, and
each of them gives one part. -/
theorem mapM_truth {α β : Type} {reading : α → Except FilterFault β}
    {lowering : β × Nat → Except FilterFault Expr} {truth : α → Option Bool} {index : Nat}
    {inputs : List α} {members : List β} {parts : List Expr}
    (hstep : ∀ input ∈ inputs, ∀ member index part, reading input = .ok member →
      lowering (member, index) = .ok part → truth input = some (part.truth holds) ∧ part.IsFull)
    (hmembers : inputs.mapM reading = .ok members)
    (hparts : (members.zipIdx index).mapM lowering = .ok parts) :
    inputs.mapM truth = some (parts.map (Expr.truth holds)) ∧ parts.length = inputs.length ∧
      ∀ part ∈ parts, part.IsFull := by
  rw [mapM_eq_ok] at hmembers
  induction hmembers generalizing index parts with
  | nil =>
      obtain rfl := Except.ok.inj hparts
      simp
  | cons hmember hmembers ih =>
      rw [List.zipIdx_cons, List.mapM_cons] at hparts
      obtain ⟨part, hpart, hparts⟩ := bind_eq_ok.1 hparts
      obtain ⟨rest, hrest, hparts⟩ := bind_eq_ok.1 hparts
      obtain rfl := pure_eq_ok.1 hparts
      rw [List.forall_mem_cons] at hstep
      obtain ⟨htruth, hfull⟩ := hstep.1 _ _ _ hmember hpart
      obtain ⟨htruths, hlength, hrest⟩ := ih hstep.2 hrest
      refine ⟨?_, by simp [hlength], List.forall_mem_cons.2 ⟨hfull, hrest⟩⟩
      rw [List.mapM_cons, htruth, htruths]
      rfl

theorem Filter.mapM_checkTruth (holds : Fact → Bool) {identifier : String} {column : ColumnRef}
    {names : Nat → String} {entries : List (String × Filter)} {checks : List Check}
    {parts : List Expr}
    (hchecks : entries.mapM (Check.ofEntry wildcards identifier) = .ok checks)
    (hparts : Expr.ofChecks scope column names 0 checks = .ok parts) :
    entries.mapM (checkTruth wildcards scope holds column) =
        some (parts.map (Expr.truth holds)) ∧
      parts.length = entries.length ∧ ∀ part ∈ parts, part.IsFull := by
  rw [Expr.ofChecks_eq_mapM] at hparts
  refine mapM_truth ?_ hchecks hparts
  intro entry _ check index part hcheck hpart
  obtain ⟨predicate, hpredicate, rfl⟩ := map_eq_ok.1 hpart
  exact ⟨checkTruth_eq_some hcheck hpredicate, by simp [Expr.IsFull]⟩

/-- The part of one column. -/
theorem Filter.columnTruth_eq_some {identifier name : String} {column : ColumnRef}
    {written : Filter} {test : Test} {part : Expr}
    (htest : Test.ofFilter wildcards identifier written = .ok test)
    (hcolumn : scope.column identifier = .ok column)
    (hpart : Expr.ofTest scope column name test = .ok part) :
    columnTruth wildcards scope holds identifier written = some (part.truth holds) ∧
      part.IsFull := by
  obtain rfl := Scope.column_eq_named hcolumn
  unfold Test.ofFilter at htest
  split at htest
  · obtain rfl := Except.ok.inj htest
    simp only [Expr.ofTest, Predicate.ofCheck, Operator.category, Except.map,
      Except.ok.injEq] at hpart
    obtain rfl := hpart
    exact ⟨rfl, by simp [Expr.IsFull]⟩
  · simp at htest
  · simp at htest
  · next entry entries =>
      obtain ⟨checks, hchecks, rfl⟩ := map_eq_ok.1 htest
      rw [Expr.ofTest] at hpart
      obtain ⟨parts, hparts, rfl⟩ := map_eq_ok.1 hpart
      obtain ⟨htruths, hlength, hfull⟩ := mapM_checkTruth holds hchecks hparts
      constructor
      · rw [columnTruth, htruths, Expr.truth_ofParts]
        rfl
      · exact Expr.isFull_ofParts.2 ⟨List.ne_nil_of_length_pos (by simp [hlength]), hfull⟩

/-- Reading and lowering the filter keeps its truth, whatever the parts are called. -/
def Filter.Kept (wildcards : Wildcards) (scope : Scope) (holds : Fact → Bool) (filter : Filter) :
    Prop :=
  ∀ formula names parts, Formula.ofNonempty wildcards filter = .ok formula →
    formula.parts scope names = .ok parts →
      filter.truth wildcards scope holds =
          some (formula.connective.combine (parts.map (Expr.truth holds))) ∧
        parts ≠ [] ∧ ∀ part ∈ parts, part.IsFull

namespace Filter

theorem Kept.toExpr {filter : Filter} (hfilter : filter.Kept wildcards scope holds)
    {formula : Formula} {name : String} {part : Expr}
    (hformula : Formula.ofNonempty wildcards filter = .ok formula)
    (hpart : formula.toExpr scope name = .ok part) :
    filter.truth wildcards scope holds = some (part.truth holds) ∧ part.IsFull := by
  rw [Formula.toExpr_eq_map_parts] at hpart
  obtain ⟨parts, hparts, rfl⟩ := map_eq_ok.1 hpart
  obtain ⟨htruth, hfull⟩ := hfilter formula _ parts hformula hparts
  exact ⟨by rw [htruth, Expr.truth_ofParts], Expr.isFull_ofParts.2 hfull⟩

theorem truths_eq_some {items : List Filter} {members : List Formula} {names : Nat → String}
    {parts : List Expr} (hitems : ∀ item ∈ items, item.Kept wildcards scope holds)
    (hmembers : Formula.ofItems wildcards items = .ok members)
    (hparts : Formula.branchExprs scope names 0 members = .ok parts) :
    truths wildcards scope holds items = some (parts.map (Expr.truth holds)) ∧
      parts.length = items.length ∧ ∀ part ∈ parts, part.IsFull := by
  rw [Formula.ofItems_eq_mapM] at hmembers
  rw [Formula.branchExprs_eq_mapM] at hparts
  rw [truths_eq_mapM]
  refine mapM_truth ?_ hmembers hparts
  intro item hitem member index part hmember hpart
  exact (hitems item hitem).toExpr hmember hpart

/-- The part of a group. -/
theorem groupTruth_eq_some {connective : Connective} {written : Filter} {members : List Formula}
    {name : String} {part : Expr}
    (hitems : ∀ items, written = .list items → ∀ item ∈ items, item.Kept wildcards scope holds)
    (hmembers : Formula.ofMembers wildcards connective written = .ok members)
    (hpart : Formula.entryExpr scope name (.group connective members) = .ok part) :
    groupTruth wildcards scope holds connective written = some (part.truth holds) ∧
      part.IsFull := by
  rw [Formula.entryExpr] at hpart
  obtain ⟨parts, hparts, rfl⟩ := map_eq_ok.1 hpart
  unfold Formula.ofMembers at hmembers
  split at hmembers
  · simp at hmembers
  · obtain ⟨htruths, hlength, hfull⟩ := truths_eq_some (hitems _ rfl) hmembers hparts
    rw [groupTruth, htruths, Expr.truth_ofParts]
    exact ⟨rfl, Expr.isFull_ofParts.2 ⟨List.ne_nil_of_length_pos (by simp [hlength]), hfull⟩⟩
  · simp at hmembers
  · simp at hmembers

theorem entryTruth_eq_some {key : String} {written : Filter} {entry : Entry} {name : String}
    {part : Expr}
    (hitems : ∀ items, written = .list items → ∀ item ∈ items, item.Kept wildcards scope holds)
    (hentry : Entry.ofPair wildcards (key, written) = .ok entry)
    (hpart : Formula.entryExpr scope name entry = .ok part) :
    entryTruth wildcards scope holds key written = some (part.truth holds) ∧ part.IsFull := by
  obtain ⟨entryKey, hkey, hentry⟩ := bind_eq_ok.1 hentry
  rcases EntryKey.ofText_eq_ok hkey with ⟨rfl, rfl⟩ | ⟨rfl, rfl⟩ | ⟨hhead, rfl⟩
  · obtain ⟨members, hmembers, rfl⟩ := map_eq_ok.1 hentry
    exact groupTruth_eq_some hitems hmembers hpart
  · obtain ⟨members, hmembers, rfl⟩ := map_eq_ok.1 hentry
    exact groupTruth_eq_some hitems hmembers hpart
  · obtain ⟨test, htest, rfl⟩ := map_eq_ok.1 hentry
    have hand : key ≠ "$and" := by rintro rfl; simp at hhead
    have hor : key ≠ "$or" := by rintro rfl; simp at hhead
    rw [entryTruth, if_neg hand, if_neg hor]
    rw [Formula.entryExpr] at hpart
    split at hpart
    · next column hcolumn => exact columnTruth_eq_some htest hcolumn hpart
    · simp at hpart

theorem entryTruths_eq_some {pairs : List (String × Filter)} {entries : List Entry}
    {names : Nat → String} {parts : List Expr}
    (hitems : ∀ key items, (key, Filter.list items) ∈ pairs →
      ∀ item ∈ items, item.Kept wildcards scope holds)
    (hentries : Formula.ofEntries wildcards pairs = .ok entries)
    (hparts : Formula.entryExprs scope names 0 entries = .ok parts) :
    entryTruths wildcards scope holds pairs = some (parts.map (Expr.truth holds)) ∧
      parts.length = pairs.length ∧ ∀ part ∈ parts, part.IsFull := by
  rw [Formula.ofEntries_eq_mapM] at hentries
  rw [Formula.entryExprs_eq_mapM] at hparts
  rw [entryTruths_eq_mapM]
  refine mapM_truth ?_ hentries hparts
  intro pair hpair entry index part hentry hpart
  refine entryTruth_eq_some ?_ hentry hpart
  intro items hwritten
  exact hitems pair.1 items (hwritten ▸ hpair)

theorem kept (holds : Fact → Bool) (filter : Filter) : filter.Kept wildcards scope holds := by
  induction filter using Filter.induction with
  | scalar value =>
      intro formula names parts hformula
      simp [Formula.ofNonempty] at hformula
  | list items ih =>
      intro formula names parts hformula hparts
      cases items with
      | nil => simp [Formula.ofNonempty] at hformula
      | cons item items =>
          rw [Formula.ofNonempty] at hformula
          obtain ⟨members, hmembers, rfl⟩ := map_eq_ok.1 hformula
          obtain ⟨htruths, hlength, hfull⟩ := truths_eq_some ih hmembers hparts
          rw [truth, htruths]
          exact ⟨rfl, List.ne_nil_of_length_pos (by simp [hlength]), hfull⟩
  | object pairs ih =>
      intro formula names parts hformula hparts
      cases pairs with
      | nil => simp [Formula.ofNonempty] at hformula
      | cons pair pairs =>
          rw [Formula.ofNonempty] at hformula
          obtain ⟨entries, hentries, rfl⟩ := map_eq_ok.1 hformula
          obtain ⟨htruths, hlength, hfull⟩ := entryTruths_eq_some ih hentries hparts
          rw [truth, htruths]
          exact ⟨rfl, List.ne_nil_of_length_pos (by simp [hlength]), hfull⟩

end Filter

end FilterSql
