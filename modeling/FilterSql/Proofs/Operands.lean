import FilterSql.Proofs.Findings
import FilterSql.Proofs.Written

/-! What may stand beside a column, and what is wrong with the rest. A category of operators takes
filters of one form; a value beside a column is compared with it, and an object holds operators with
what each of them takes. -/

namespace FilterSql

/-! ### Operands -/

/-- The scalar has a text inside a pattern. -/
inductive Scalar.IsShowable : Scalar → Prop
  | text (value : String) : IsShowable (.text value)
  | int (value : Int64) : IsShowable (.int value)
  | float (value : Double) : IsShowable (.float value)
  | bool (value : Bool) : IsShowable (.bool value)

namespace Operator.Category

/-- An operator of the category takes the written filter. -/
inductive Takes : Category → Filter → Prop
  | comparison (value : Scalar) : Takes .comparison (.scalar value)
  | regex (value : Scalar) : Takes .regex (.scalar value)
  | pattern {value : Scalar} (hvalue : value.IsShowable) : Takes .pattern (.scalar value)
  | range (low high : Scalar) : Takes .range (.list [.scalar low, .scalar high])
  | membership {values : List Scalar} (hvalues : values ≠ []) :
      Takes .membership (.list (values.map .scalar))
  | columnCompare (other : String) : Takes .columnCompare (.scalar (.text other))

/-- What a fault says an operator of the category expects in place of the written filter. -/
inductive Expects : Category → Filter → Expected → Prop
  | comparison {written : Filter} : Expects .comparison written .scalar
  | regex {written : Filter} : Expects .regex written .scalar
  | pattern {written : Filter} : Expects .pattern written .patternText
  | range {written : Filter}
      (hwritten : ∀ values : List Scalar, written ≠ .list (values.map .scalar)) :
      Expects .range written .twoScalars
  | member {items : List Filter} (hitems : items ≠ []) :
      Expects .membership (.list items) .scalarList
  | membership {written : Filter} (hwritten : ∀ items, written = .list items → items = []) :
      Expects .membership written .nonemptyList
  | columnCompare {written : Filter} : Expects .columnCompare written .columnName

end Operator.Category

/-- What is wrong with a filter written beside an operator on a column. -/
inductive Operand.HasFault (column : String) (operator : Operator) (written : Filter) :
    FilterFault → Prop
  | unfit {expected : Expected} (hwritten : ¬ operator.category.Takes written)
      (hexpected : operator.category.Expects written expected) :
      HasFault column operator written
        (.malformed (.unfitOperand operator column expected written.shape))
  | arity {values : List Scalar} (hcategory : operator.category = .range)
      (hwritten : written = .list (values.map .scalar)) (hlength : values.length ≠ 2) :
      HasFault column operator written (.rangeArity column operator values.length)
  | group (hcategory : operator.category = .booleanGroup) :
      HasFault column operator written (.malformed (.groupInsideColumn operator column))

theorem Scalar.isShowable_iff {value : Scalar} :
    value.IsShowable ↔ ∃ text, value.patternText? = some text := by
  constructor
  · intro h
    cases h <;> exact ⟨_, rfl⟩
  · rintro ⟨text, htext⟩
    cases value with
    | null => simp [patternText?] at htext
    | instant value => simp [patternText?] at htext
    | bytes value => simp [patternText?] at htext
    | bool value => exact .bool value
    | int value => exact .int value
    | float value => exact .float value
    | text value => exact .text value

theorem Operator.Category.Takes.length_eq_two {values : List Scalar}
    (h : Takes .range (.list (values.map .scalar))) : values.length = 2 := by
  generalize hitems : values.map Filter.scalar = items at h
  cases h
  simpa using congrArg List.length hitems

theorem Operator.Category.Takes.ne_nil {values : List Scalar}
    (h : Takes .membership (.list (values.map .scalar))) : values ≠ [] := by
  generalize hitems : values.map Filter.scalar = items at h
  cases h with
  | membership hvalues =>
      rintro rfl
      exact hvalues (by simpa using hitems.symm)

theorem Operator.Category.Expects.unique {category : Category} {written : Filter}
    {expected expected' : Expected} (h : category.Expects written expected)
    (h' : category.Expects written expected') : expected' = expected := by
  cases h with
  | comparison => cases h'; rfl
  | regex => cases h'; rfl
  | pattern => cases h'; rfl
  | range => cases h'; rfl
  | columnCompare => cases h'; rfl
  | member hitems =>
      cases h' with
      | member => rfl
      | membership hwritten => exact absurd (hwritten _ rfl) hitems
  | membership hwritten =>
      cases h' with
      | member hitems => exact absurd (hwritten _ rfl) hitems
      | membership => rfl

/-- A list of scalars beside a range is a matter of their number. -/
theorem Operator.Category.not_expects_range {values : List Scalar} {expected : Expected} :
    ¬ Expects .range (.list (values.map .scalar)) expected := by
  intro h
  cases h with
  | range hwritten => exact hwritten values rfl

theorem Operator.Category.expects_twoScalars {items : List Filter}
    (h : items.mapM Filter.scalar? = none) : Expects .range (.list items) .twoScalars := by
  refine .range ?_
  intro values hwritten
  have hvalues := Filter.mapM_scalar?_eq_some.2 (Filter.list.inj hwritten)
  simp [hvalues] at h

theorem Operator.Category.expects_nonemptyList {written : Filter}
    (h : ∀ item items, written ≠ .list (item :: items)) :
    Expects .membership written .nonemptyList := by
  refine .membership ?_
  rintro items rfl
  cases items with
  | nil => rfl
  | cons item items => exact absurd rfl (h item items)

namespace Operand

variable {column : String} {operator : Operator} {written : Filter}

theorem HasFault.not_takes {fault : FilterFault} (h : HasFault column operator written fault) :
    ¬ operator.category.Takes written := by
  cases h with
  | unfit hwritten => exact hwritten
  | arity hcategory hwritten hlength =>
      rw [hcategory, hwritten]
      exact fun htakes => hlength htakes.length_eq_two
  | group hcategory =>
      rw [hcategory]
      nofun

theorem HasFault.unique {fault fault' : FilterFault} (h : HasFault column operator written fault)
    (h' : HasFault column operator written fault') : fault' = fault := by
  cases h with
  | unfit hwritten hexpected =>
      cases h' with
      | unfit _ hexpected' => rw [hexpected.unique hexpected']
      | arity hcategory hvalues =>
          rw [hcategory, hvalues] at hexpected
          exact absurd hexpected Operator.Category.not_expects_range
      | group hcategory =>
          rw [hcategory] at hexpected
          nomatch hexpected
  | arity hcategory hvalues =>
      cases h' with
      | unfit _ hexpected =>
          rw [hcategory, hvalues] at hexpected
          exact absurd hexpected Operator.Category.not_expects_range
      | arity _ hvalues' =>
          have hlength := congrArg List.length (Filter.list.inj (hvalues.symm.trans hvalues'))
          rw [List.length_map, List.length_map] at hlength
          rw [hlength]
      | group hgroup => simp [hcategory] at hgroup
  | group hcategory =>
      cases h' with
      | unfit _ hexpected =>
          rw [hcategory] at hexpected
          nomatch hexpected
      | arity hrange => simp [hcategory] at hrange
      | group => rfl

theorem takes_of_ofFilter {wildcards : Wildcards} {operand : Operand}
    (h : ofFilter wildcards column operator written = .ok operand) :
    operator.category.Takes written := by
  cases written_of_ofFilter h with
  | value hcategory =>
      rcases hcategory with hcategory | hcategory
      · rw [hcategory]
        exact .comparison _
      · rw [hcategory]
        exact .regex _
  | pattern hcategory htext =>
      rw [hcategory]
      exact .pattern (Scalar.isShowable_iff.2 ⟨_, htext⟩)
  | range hcategory =>
      rw [hcategory]
      exact .range _ _
  | list hcategory hitems =>
      obtain rfl := Filter.mapM_scalar?_eq_some.1 hitems
      rw [hcategory]
      refine .membership ?_
      rintro rfl
      simp [ofFilter, hcategory, unfit] at h
  | column hcategory =>
      rw [hcategory]
      exact .columnCompare _

theorem exists_ofFilter_of_takes (wildcards : Wildcards) (column : String)
    (h : operator.category.Takes written) :
    ∃ operand, ofFilter wildcards column operator written = .ok operand := by
  generalize hcategory : operator.category = category at h
  cases h with
  | comparison value => exact ⟨.scalar value, by simp [ofFilter, hcategory]⟩
  | regex value => exact ⟨.scalar value, by simp [ofFilter, hcategory]⟩
  | pattern hvalue =>
      obtain ⟨text, htext⟩ := Scalar.isShowable_iff.1 hvalue
      exact ⟨.scalar (.text (wildcards.surround text)), by
        simp [ofFilter, hcategory, Filter.scalar?, htext]⟩
  | range low high =>
      exact ⟨.range low high, by simp [ofFilter, hcategory, Filter.scalar?]⟩
  | @membership values hvalues =>
      refine ⟨.list values, ?_⟩
      have hitems := Filter.mapM_scalar?_eq_some.2 (rfl : values.map Filter.scalar = _)
      cases values with
      | nil => exact absurd rfl hvalues
      | cons value values =>
          rw [List.map_cons] at hitems ⊢
          simp only [ofFilter, hcategory, hitems]
  | columnCompare other => exact ⟨.column other, by simp [ofFilter, hcategory]⟩

theorem hasFault_of_ofFilter {wildcards : Wildcards} {fault : FilterFault}
    (h : ofFilter wildcards column operator written = .error fault) :
    HasFault column operator written fault := by
  have hwritten : ¬ operator.category.Takes written := by
    intro htakes
    obtain ⟨operand, hoperand⟩ := exists_ofFilter_of_takes wildcards column htakes
    simp [hoperand] at h
  have hunfit : ∀ expected, operator.category.Expects written expected →
      unfit column operator written expected = .error fault →
        HasFault column operator written fault := by
    intro expected hexpected herror
    rw [← Except.error.inj herror]
    exact .unfit hwritten hexpected
  unfold ofFilter at h
  split at h
  · next hcategory =>
      split at h
      · simp at h
      · exact hunfit _ (hcategory ▸ .comparison) h
  · next hcategory =>
      split at h
      · simp at h
      · exact hunfit _ (hcategory ▸ .regex) h
  · next hcategory =>
      split at h
      · simp at h
      · exact hunfit _ (hcategory ▸ .pattern) h
  · next hcategory =>
      split at h
      · split at h
        · simp at h
        · next values hpair hvalues =>
            obtain rfl := Filter.mapM_scalar?_eq_some.1 hvalues
            rw [← Except.error.inj h]
            refine .arity hcategory rfl ?_
            intro hlength
            obtain ⟨low, high, rfl⟩ := List.length_eq_two.1 hlength
            exact hpair low high rfl
        · next hnone => exact hunfit _ (hcategory ▸ Operator.Category.expects_twoScalars hnone) h
      · next hlist =>
          exact hunfit _ (hcategory ▸ .range fun values hvalues => hlist _ hvalues) h
  · next hcategory =>
      split at h
      · split at h
        · simp at h
        · exact hunfit _ (hcategory ▸ .member (List.cons_ne_nil _ _)) h
      · next hlist => exact hunfit _ (hcategory ▸ Operator.Category.expects_nonemptyList hlist) h
  · next hcategory =>
      split at h
      · simp at h
      · exact hunfit _ (hcategory ▸ .columnCompare) h
  · next hcategory =>
      rw [← Except.error.inj h]
      exact .group hcategory

theorem judges (wildcards : Wildcards) (column : String) (operator : Operator)
    (written : Filter) :
    (Findings.here (HasFault column operator written)).Judges (operator.category.Takes written)
      (ofFilter wildcards column operator written) :=
  Findings.judges_here (fun _ => takes_of_ofFilter) (fun _ => hasFault_of_ofFilter)
    (fun _ => HasFault.not_takes) (fun _ _ => HasFault.unique)

end Operand

/-! ### Tests -/

/-- The token names the operator. -/
def Operator.IsToken (operator : Operator) (token : String) : Prop :=
  token = operator.token ∨ operator = .isNot ∧ token = "$notIs"

/-- The token names an operator that takes what is written beside it. -/
def Check.IsValid (entry : String × Filter) : Prop :=
  ∃ operator : Operator, operator.IsToken entry.1 ∧ operator.category.Takes entry.2

/-- What is wrong with an entry of an operator object on a column. -/
inductive Check.HasFault (column : String) (entry : String × Filter) : FilterFault → Prop
  | token (htoken : ∀ operator : Operator, ¬ operator.IsToken entry.1) :
      HasFault column entry (.unknownOperator entry.1)
  | operand {operator : Operator} {fault : FilterFault} (htoken : operator.IsToken entry.1)
      (hfault : Operand.HasFault column operator entry.2 fault) : HasFault column entry fault

/-- The written filter is a value, or operators that all have to hold. -/
inductive Test.IsValid : Filter → Prop
  | equals (value : Scalar) : IsValid (.scalar value)
  | every {entries : List (String × Filter)} (hentries : entries ≠ [])
      (hchecks : ∀ entry ∈ entries, Check.IsValid entry) : IsValid (.object entries)

/-- What is wrong with what stands beside a column, and where. -/
inductive Test.FaultAt (column : String) : Filter → Findings FilterFault
  | list {items : List Filter} :
      FaultAt column (.list items) [] (.malformed (.columnWithList column))
  | noChecks : FaultAt column (.object []) [] (.malformed (.noChecks column))
  | check {entries : List (String × Filter)} {entry : String × Filter} {index : Nat}
      {fault : FilterFault} (hentry : entries[index]? = some entry)
      (hfault : Check.HasFault column entry fault) : FaultAt column (.object entries) [index] fault

theorem Operator.ofToken?_eq_some_iff {token : String} {operator : Operator} :
    ofToken? token = some operator ↔ operator.IsToken token := by
  constructor
  · intro h
    rcases ofToken?_eq_some h with ⟨htoken, hoperator⟩ | htoken
    · exact .inr ⟨hoperator, htoken⟩
    · exact .inl htoken
  · rintro (rfl | ⟨rfl, rfl⟩)
    · cases operator <;> rfl
    · rfl

theorem Operator.ofToken?_eq_none_iff {token : String} :
    ofToken? token = none ↔ ∀ operator : Operator, ¬ operator.IsToken token := by
  simp only [Option.eq_none_iff_forall_ne_some, ne_eq, ofToken?_eq_some_iff]

theorem Operator.IsToken.head? {token : String} {operator : Operator}
    (h : operator.IsToken token) : token.toList.head? = some '$' :=
  head?_of_ofToken? (ofToken?_eq_some_iff.2 h)

/-- A token names one operator. -/
theorem Operator.IsToken.unique {token : String} {operator operator' : Operator}
    (h : operator.IsToken token) (h' : operator'.IsToken token) : operator' = operator :=
  Option.some.inj ((ofToken?_eq_some_iff.2 h').symm.trans (ofToken?_eq_some_iff.2 h))

theorem Check.judges (wildcards : Wildcards) (column : String) (entry : String × Filter) :
    (Findings.here (HasFault column entry)).Judges (IsValid entry)
      (ofEntry wildcards column entry) := by
  cases hoperator : Operator.ofToken? entry.1 with
  | none =>
      have htoken := Operator.ofToken?_eq_none_iff.1 hoperator
      simp only [ofEntry, hoperator]
      refine Findings.judges_error ?_ ?_
      · rintro ⟨operator, hoperator, -⟩
        exact htoken operator hoperator
      · intro place fault
        refine and_congr_right fun _ => ⟨?_, ?_⟩
        · intro hfault
          cases hfault with
          | token => rfl
          | operand hoperator => exact absurd hoperator (htoken _)
        · rintro rfl
          exact .token htoken
  | some operator =>
      have htoken := Operator.ofToken?_eq_some_iff.1 hoperator
      simp only [ofEntry, hoperator]
      refine ((Operand.judges wildcards column operator entry.2).map _).congr ?_ ?_
      · constructor
        · intro htakes
          exact ⟨operator, htoken, htakes⟩
        · rintro ⟨operator', htoken', htakes⟩
          rwa [htoken.unique htoken'] at htakes
      · intro place fault
        refine and_congr_right fun _ => ⟨.operand htoken, ?_⟩
        intro hfault
        cases hfault with
        | token hnone => exact absurd htoken (hnone operator)
        | operand htoken' hfault => rwa [htoken.unique htoken'] at hfault

theorem Test.isValid_object {entries : List (String × Filter)} :
    IsValid (.object entries) ↔ entries ≠ [] ∧ ∀ entry ∈ entries, Check.IsValid entry := by
  constructor
  · intro h
    cases h with
    | every hentries hchecks => exact ⟨hentries, hchecks⟩
  · rintro ⟨hentries, hchecks⟩
    exact .every hentries hchecks

theorem Test.faultAt_object {column : String} {entries : List (String × Filter)}
    {place : List Nat} {fault : FilterFault} :
    FaultAt column (.object entries) place fault ↔
      entries = [] ∧ place = [] ∧ fault = .malformed (.noChecks column) ∨
        Findings.within (fun entry => Findings.here (Check.HasFault column entry)) entries place
          fault := by
  constructor
  · intro h
    cases h with
    | noChecks => exact .inl ⟨rfl, rfl, rfl⟩
    | check hentry hfault => exact .inr ⟨_, _, [], hentry, rfl, rfl, hfault⟩
  · rintro (⟨rfl, rfl, rfl⟩ | ⟨index, entry, _, hentry, rfl, rfl, hfault⟩)
    · exact .noChecks
    · exact .check hentry hfault

theorem Test.judges (wildcards : Wildcards) (column : String) (written : Filter) :
    (FaultAt column written).Judges (IsValid written) (ofFilter wildcards column written) := by
  cases written with
  | scalar value =>
      rw [ofFilter]
      refine ⟨.equals value, ?_⟩
      intro place fault h
      cases h
  | list items =>
      rw [ofFilter]
      refine Findings.judges_error ?_ fun place fault => ⟨?_, ?_⟩
      · intro h
        cases h
      · intro h
        cases h
        exact ⟨rfl, rfl⟩
      · rintro ⟨rfl, rfl⟩
        exact .list
  | object entries =>
      cases entries with
      | nil =>
          rw [ofFilter]
          refine Findings.judges_error ?_ fun place fault => ?_
          · simp [isValid_object]
          · simp [faultAt_object]
      | cons entry entries =>
          have hchecks : ∀ check ∈ entry :: entries,
              (Findings.here (Check.HasFault column check)).Judges (Check.IsValid check)
                (Check.ofEntry wildcards column check) :=
            fun check _ => Check.judges wildcards column check
          rw [ofFilter]
          refine ((Findings.judges_mapM hchecks).map _).congr ?_ fun place fault => ?_
          · simp [isValid_object]
          · simp [faultAt_object]

end FilterSql
