import FilterSql.Proofs.Operands

/-! Which filters are accepted, and what is wrong with the others. A valid filter is described by
its form alone, and so is every fault, with the place in the document where it stands. Reading gives
a formula for exactly the valid filters, and for every other one the fault that stands first. -/

namespace FilterSql

/-! ### Keys -/

theorem Connective.isToken_operator_iff {connective : Connective} {key : String} :
    connective.operator.IsToken key ↔ key = connective.operator.token := by
  constructor
  · rintro (hkey | ⟨hoperator, -⟩)
    · exact hkey
    · cases connective <;> nomatch hoperator
  · exact .inl

/-- The operators that group filters are those of the connectives. -/
theorem Operator.category_eq_booleanGroup {operator : Operator} :
    operator.category = .booleanGroup ↔
      ∃ connective : Connective, operator = connective.operator := by
  constructor
  · intro h
    cases operator with
    | and => exact ⟨.and, rfl⟩
    | or => exact ⟨.or, rfl⟩
    | _ => cases h
  · rintro ⟨connective, rfl⟩
    cases connective <;> rfl

/-- What a key of a filter object can be. -/
inductive EntryKey.Reads (key : String) : Except FilterFault EntryKey → Prop
  | column (hkey : key.toList.head? ≠ some '$') : Reads key (.ok (.column key))
  | group {connective : Connective} (hkey : key = connective.operator.token) :
      Reads key (.ok (.group connective))
  | operator {operator : Operator} (htoken : operator.IsToken key)
      (hcategory : operator.category ≠ .booleanGroup) :
      Reads key (.error (.malformed (.operatorAsColumn operator)))
  | unknown (hkey : key.toList.head? = some '$')
      (htoken : ∀ operator : Operator, ¬ operator.IsToken key) :
      Reads key (.error (.unknownOperator key))

theorem EntryKey.reads_ofText (key : String) : Reads key (ofText key) := by
  unfold ofText
  split
  · next hkey =>
      split
      · next hnone => exact .unknown hkey (Operator.ofToken?_eq_none_iff.1 hnone)
      · next hsome =>
          have htoken := Operator.ofToken?_eq_some_iff.1 hsome
          exact .group (Connective.isToken_operator_iff.1 htoken)
      · next hsome =>
          have htoken := Operator.ofToken?_eq_some_iff.1 hsome
          exact .group (Connective.isToken_operator_iff.1 htoken)
      · next operator hand hor hsome =>
          refine .operator (Operator.ofToken?_eq_some_iff.1 hsome) ?_
          intro hcategory
          obtain ⟨connective, rfl⟩ := Operator.category_eq_booleanGroup.1 hcategory
          cases connective with
          | and => exact hand rfl
          | or => exact hor rfl
  · next hkey => exact .column hkey

/-! ### Filters -/

mutual

/-- The filter restricts something. -/
inductive Filter.IsValid : Filter → Prop
  | list {items : List Filter} (hitems : items ≠ []) (hvalid : ∀ item ∈ items, item.IsValid) :
      IsValid (.list items)
  | object {entries : List (String × Filter)} (hentries : entries ≠ [])
      (hvalid : ∀ entry ∈ entries, Filter.IsValidEntry entry.1 entry.2) : IsValid (.object entries)

/-- The key is a connective with filters to group, or a column with a test. -/
inductive Filter.IsValidEntry : String → Filter → Prop
  | group {key : String} {connective : Connective} {items : List Filter}
      (hkey : key = connective.operator.token) (hitems : items ≠ [])
      (hvalid : ∀ item ∈ items, item.IsValid) : IsValidEntry key (.list items)
  | column {key : String} {written : Filter} (hkey : key.toList.head? ≠ some '$')
      (htest : Test.IsValid written) : IsValidEntry key written

end

mutual

/-- What is wrong with a filter that has to restrict something, and where. -/
inductive Filter.FaultAt : Filter → Findings FilterFault
  | bareScalar {value : Scalar} : FaultAt (.scalar value) [] (.malformed (.bareScalar value))
  | emptyList : FaultAt (.list []) [] (.malformed .emptyList)
  | emptyObject : FaultAt (.object []) [] (.malformed .emptyObject)
  | item {items : List Filter} {item : Filter} {index : Nat} {place : List Nat}
      {fault : FilterFault} (hitem : items[index]? = some item)
      (hfault : item.FaultAt place fault) : FaultAt (.list items) (index :: place) fault
  | entry {entries : List (String × Filter)} {entry : String × Filter} {index : Nat}
      {place : List Nat} {fault : FilterFault} (hentry : entries[index]? = some entry)
      (hfault : Filter.EntryFaultAt entry.1 entry.2 place fault) :
      FaultAt (.object entries) (index :: place) fault

/-- What is wrong with an entry of a filter object, and where. A key that is no connective but an
operator is at fault whatever stands beside it. -/
inductive Filter.EntryFaultAt : String → Filter → Findings FilterFault
  | unknownOperator {key : String} {written : Filter} (hkey : key.toList.head? = some '$')
      (htoken : ∀ operator : Operator, ¬ operator.IsToken key) :
      EntryFaultAt key written [] (.unknownOperator key)
  | operatorAsColumn {key : String} {written : Filter} {operator : Operator}
      (htoken : operator.IsToken key) (hcategory : operator.category ≠ .booleanGroup) :
      EntryFaultAt key written [] (.malformed (.operatorAsColumn operator))
  | emptyGroup {key : String} {connective : Connective} (hkey : key = connective.operator.token) :
      EntryFaultAt key (.list []) [] (.malformed (.emptyGroup connective))
  | groupWithoutList {key : String} {connective : Connective} {written : Filter}
      (hkey : key = connective.operator.token) (hwritten : written.shape ≠ .list) :
      EntryFaultAt key written [] (.malformed (.groupWithoutList connective written.shape))
  | member {key : String} {connective : Connective} {items : List Filter} {item : Filter}
      {index : Nat} {place : List Nat} {fault : FilterFault}
      (hkey : key = connective.operator.token) (hitem : items[index]? = some item)
      (hfault : item.FaultAt place fault) : EntryFaultAt key (.list items) (index :: place) fault
  | column {key : String} {written : Filter} {place : List Nat} {fault : FilterFault}
      (hkey : key.toList.head? ≠ some '$') (hfault : Test.FaultAt key written place fault) :
      EntryFaultAt key written place fault

end

namespace Filter

theorem isValid_list {items : List Filter} :
    IsValid (.list items) ↔ items ≠ [] ∧ ∀ item ∈ items, item.IsValid := by
  constructor
  · intro h
    cases h with
    | list hitems hvalid => exact ⟨hitems, hvalid⟩
  · rintro ⟨hitems, hvalid⟩
    exact .list hitems hvalid

theorem isValid_object {entries : List (String × Filter)} :
    IsValid (.object entries) ↔
      entries ≠ [] ∧ ∀ entry ∈ entries, IsValidEntry entry.1 entry.2 := by
  constructor
  · intro h
    cases h with
    | object hentries hvalid => exact ⟨hentries, hvalid⟩
  · rintro ⟨hentries, hvalid⟩
    exact .object hentries hvalid

theorem faultAt_list {items : List Filter} {place : List Nat} {fault : FilterFault} :
    FaultAt (.list items) place fault ↔
      items = [] ∧ place = [] ∧ fault = .malformed .emptyList ∨
        Findings.within FaultAt items place fault := by
  constructor
  · intro h
    cases h with
    | emptyList => exact .inl ⟨rfl, rfl, rfl⟩
    | item hitem hfault => exact .inr ⟨_, _, _, hitem, rfl, hfault⟩
  · rintro (⟨rfl, rfl, rfl⟩ | ⟨index, item, place, hitem, rfl, hfault⟩)
    · exact .emptyList
    · exact .item hitem hfault

theorem faultAt_object {entries : List (String × Filter)} {place : List Nat}
    {fault : FilterFault} :
    FaultAt (.object entries) place fault ↔
      entries = [] ∧ place = [] ∧ fault = .malformed .emptyObject ∨
        Findings.within (fun entry => EntryFaultAt entry.1 entry.2) entries place fault := by
  constructor
  · intro h
    cases h with
    | emptyObject => exact .inl ⟨rfl, rfl, rfl⟩
    | entry hentry hfault => exact .inr ⟨_, _, _, hentry, rfl, hfault⟩
  · rintro (⟨rfl, rfl, rfl⟩ | ⟨index, entry, place, hentry, rfl, hfault⟩)
    · exact .emptyObject
    · exact .entry hentry hfault

/-- Reading the filter as one that has to restrict something judges it. -/
def Judged (wildcards : Wildcards) (filter : Filter) : Prop :=
  filter.FaultAt.Judges filter.IsValid (Formula.ofNonempty wildcards filter)

variable {wildcards : Wildcards}

/-- An entry with a connective as its key has the faults of a group. -/
theorem entryFaultAt_group {key : String} {connective : Connective} {written : Filter}
    {place : List Nat} {fault : FilterFault} (hkey : key = connective.operator.token) :
    EntryFaultAt key written place fault ↔
      written = .list [] ∧ place = [] ∧ fault = .malformed (.emptyGroup connective) ∨
        written.shape ≠ .list ∧ place = [] ∧
            fault = .malformed (.groupWithoutList connective written.shape) ∨
          ∃ items, written = .list items ∧ Findings.within FaultAt items place fault := by
  have htoken := Connective.isToken_operator_iff.2 hkey
  have hunique : ∀ other : Connective, key = other.operator.token → other = connective := by
    intro other hother
    have hoperator := htoken.unique (Connective.isToken_operator_iff.2 hother)
    cases connective <;> cases other <;> first | rfl | nomatch hoperator
  constructor
  · intro h
    cases h with
    | unknownOperator _ hnone => exact absurd htoken (hnone _)
    | operatorAsColumn htoken' hcategory =>
        rw [htoken.unique htoken'] at hcategory
        exact absurd (Operator.category_eq_booleanGroup.2 ⟨connective, rfl⟩) hcategory
    | emptyGroup hother =>
        rw [hunique _ hother]
        exact .inl ⟨rfl, rfl, rfl⟩
    | groupWithoutList hother hwritten =>
        rw [hunique _ hother]
        exact .inr (.inl ⟨hwritten, rfl, rfl⟩)
    | member _ hitem hfault => exact .inr (.inr ⟨_, rfl, _, _, _, hitem, rfl, hfault⟩)
    | column hhead => exact absurd htoken.head? hhead
  · rintro (⟨rfl, rfl, rfl⟩ | ⟨hwritten, rfl, rfl⟩ |
      ⟨items, rfl, index, item, inner, hitem, rfl, hfault⟩)
    · exact .emptyGroup hkey
    · exact .groupWithoutList hkey hwritten
    · exact .member hkey hitem hfault

theorem isValidEntry_group {key : String} {connective : Connective} {written : Filter}
    (hkey : key = connective.operator.token) :
    IsValidEntry key written ↔
      ∃ items, written = .list items ∧ items ≠ [] ∧ ∀ item ∈ items, item.IsValid := by
  constructor
  · intro h
    cases h with
    | group _ hitems hvalid => exact ⟨_, rfl, hitems, hvalid⟩
    | column hhead => exact absurd (Connective.isToken_operator_iff.2 hkey).head? hhead
  · rintro ⟨items, rfl, hitems, hvalid⟩
    exact .group hkey hitems hvalid

/-- An entry whose key is no operator has the faults of a test. -/
theorem entryFaultAt_column {key : String} {written : Filter} {place : List Nat}
    {fault : FilterFault} (hkey : key.toList.head? ≠ some '$') :
    EntryFaultAt key written place fault ↔ Test.FaultAt key written place fault := by
  have hconnective : ∀ connective : Connective, key ≠ connective.operator.token := by
    intro connective htoken
    exact hkey (Connective.isToken_operator_iff.2 htoken).head?
  constructor
  · intro h
    cases h with
    | unknownOperator hhead => exact absurd hhead hkey
    | operatorAsColumn htoken => exact absurd htoken.head? hkey
    | emptyGroup htoken => exact absurd htoken (hconnective _)
    | groupWithoutList htoken => exact absurd htoken (hconnective _)
    | member htoken => exact absurd htoken (hconnective _)
    | column _ hfault => exact hfault
  · exact .column hkey

theorem isValidEntry_column {key : String} {written : Filter}
    (hkey : key.toList.head? ≠ some '$') : IsValidEntry key written ↔ Test.IsValid written := by
  constructor
  · intro h
    cases h with
    | group htoken => exact absurd (Connective.isToken_operator_iff.2 htoken).head? hkey
    | column _ htest => exact htest
  · exact .column hkey

/-- An entry with the key of an operator that is no connective has the fault of its key. -/
theorem entryFaultAt_operator {key : String} {operator : Operator} {written : Filter}
    {place : List Nat} {fault : FilterFault} (htoken : operator.IsToken key)
    (hcategory : operator.category ≠ .booleanGroup) :
    EntryFaultAt key written place fault ↔
      place = [] ∧ fault = .malformed (.operatorAsColumn operator) := by
  have hconnective : ∀ connective : Connective, key ≠ connective.operator.token := by
    intro connective hkey
    have hoperator := htoken.unique (Connective.isToken_operator_iff.2 hkey)
    exact hcategory (Operator.category_eq_booleanGroup.2 ⟨connective, hoperator.symm⟩)
  constructor
  · intro h
    cases h with
    | unknownOperator _ hnone => exact absurd htoken (hnone _)
    | operatorAsColumn htoken' =>
        rw [htoken.unique htoken']
        exact ⟨rfl, rfl⟩
    | emptyGroup hkey => exact absurd hkey (hconnective _)
    | groupWithoutList hkey => exact absurd hkey (hconnective _)
    | member hkey => exact absurd hkey (hconnective _)
    | column hkey => exact absurd htoken.head? hkey
  · rintro ⟨rfl, rfl⟩
    exact .operatorAsColumn htoken hcategory

/-- An entry with an unknown key that looks like an operator has the fault of its key. -/
theorem entryFaultAt_unknown {key : String} {written : Filter} {place : List Nat}
    {fault : FilterFault} (hkey : key.toList.head? = some '$')
    (htoken : ∀ operator : Operator, ¬ operator.IsToken key) :
    EntryFaultAt key written place fault ↔ place = [] ∧ fault = .unknownOperator key := by
  have hconnective : ∀ connective : Connective, key ≠ connective.operator.token := by
    intro connective hgroup
    exact htoken _ (Connective.isToken_operator_iff.2 hgroup)
  constructor
  · intro h
    cases h with
    | unknownOperator => exact ⟨rfl, rfl⟩
    | operatorAsColumn hknown => exact absurd hknown (htoken _)
    | emptyGroup hgroup => exact absurd hgroup (hconnective _)
    | groupWithoutList hgroup => exact absurd hgroup (hconnective _)
    | member hgroup => exact absurd hgroup (hconnective _)
    | column hcolumn => exact absurd hkey hcolumn
  · rintro ⟨rfl, rfl⟩
    exact .unknownOperator hkey htoken

theorem judges_ofMembers {key : String} {connective : Connective} {written : Filter}
    (hkey : key = connective.operator.token)
    (hitems : ∀ items, written = .list items → ∀ item ∈ items, item.Judged wildcards) :
    (EntryFaultAt key written).Judges (IsValidEntry key written)
      (Formula.ofMembers wildcards connective written) := by
  cases written with
  | scalar value =>
      rw [Formula.ofMembers]
      refine Findings.judges_error ?_ fun place fault => ?_
      · simp [isValidEntry_group hkey]
      · simp [entryFaultAt_group hkey, shape]
  | object entries =>
      rw [Formula.ofMembers]
      refine Findings.judges_error ?_ fun place fault => ?_
      · simp [isValidEntry_group hkey]
      · simp [entryFaultAt_group hkey, shape]
  | list items =>
      cases items with
      | nil =>
          rw [Formula.ofMembers]
          refine Findings.judges_error ?_ fun place fault => ?_
          · simp [isValidEntry_group hkey]
          · simp [entryFaultAt_group hkey, shape]
      | cons item items =>
          rw [Formula.ofMembers, Formula.ofItems_eq_mapM]
          refine (Findings.judges_mapM (hitems _ rfl)).congr ?_ fun place fault => ?_
          · simp [isValidEntry_group hkey]
          · simp [entryFaultAt_group hkey, shape]

theorem judges_ofPair {key : String} {written : Filter}
    (hitems : ∀ items, written = .list items → ∀ item ∈ items, item.Judged wildcards) :
    (EntryFaultAt key written).Judges (IsValidEntry key written)
      (Entry.ofPair wildcards (key, written)) := by
  rw [Entry.ofPair]
  have hreads := EntryKey.reads_ofText key
  generalize EntryKey.ofText key = read at hreads
  cases hreads with
  | column hkey =>
      refine ((Test.judges wildcards key written).map _).congr ?_ fun place fault => ?_
      · exact (isValidEntry_column hkey).symm
      · exact (entryFaultAt_column hkey).symm
  | group hkey => exact (judges_ofMembers hkey hitems).map _
  | operator htoken hcategory =>
      refine Findings.judges_error ?_ fun place fault => entryFaultAt_operator htoken hcategory
      intro h
      cases h with
      | group hgroup =>
          have hoperator := htoken.unique (Connective.isToken_operator_iff.2 hgroup)
          exact hcategory (Operator.category_eq_booleanGroup.2 ⟨_, hoperator.symm⟩)
      | column hkey => exact hkey htoken.head?
  | unknown hkey htoken =>
      refine Findings.judges_error ?_ fun place fault => entryFaultAt_unknown hkey htoken
      intro h
      cases h with
      | group hgroup => exact htoken _ (Connective.isToken_operator_iff.2 hgroup)
      | column hcolumn => exact hcolumn hkey

theorem judged (wildcards : Wildcards) (filter : Filter) : filter.Judged wildcards := by
  -- the empty list and the empty object are faults themselves, all others are judged by members
  induction filter using Filter.induction with
  | scalar value =>
      rw [Judged, Formula.ofNonempty]
      refine Findings.judges_error ?_ fun place fault => ⟨?_, ?_⟩
      · intro h
        cases h
      · intro h
        cases h
        exact ⟨rfl, rfl⟩
      · rintro ⟨rfl, rfl⟩
        exact .bareScalar
  | list items ih =>
      cases items with
      | nil =>
          rw [Judged, Formula.ofNonempty]
          refine Findings.judges_error ?_ fun place fault => ?_
          · simp [isValid_list]
          · simp [faultAt_list]
      | cons item items =>
          rw [Judged, Formula.ofNonempty, Formula.ofItems_eq_mapM]
          refine ((Findings.judges_mapM ih).map _).congr ?_ fun place fault => ?_
          · simp [isValid_list]
          · simp [faultAt_list]
  | object entries ih =>
      cases entries with
      | nil =>
          rw [Judged, Formula.ofNonempty]
          refine Findings.judges_error ?_ fun place fault => ?_
          · simp [isValid_object]
          · simp [faultAt_object]
      | cons entry entries =>
          have hentries : ∀ pair ∈ entry :: entries,
              (EntryFaultAt pair.1 pair.2).Judges (IsValidEntry pair.1 pair.2)
                (Entry.ofPair wildcards pair) := by
            intro pair hpair
            apply judges_ofPair
            intro items hwritten
            exact ih pair.1 items (hwritten ▸ hpair)
          rw [Judged, Formula.ofNonempty, Formula.ofEntries_eq_mapM]
          refine ((Findings.judges_mapM hentries).map _).congr ?_ fun place fault => ?_
          · simp [isValid_object]
          · simp [faultAt_object]

end Filter

/-- A filter is read exactly when it is empty or valid. Any other filter is refused, with the fault
that stands first in it. -/
theorem Formula.judges_ofFilter (wildcards : Wildcards) (filter : Filter) :
    ((∃ formula, ofFilter wildcards filter = .ok formula) ↔
        filter.isEmpty = true ∨ filter.IsValid) ∧
      ∀ fault, ofFilter wildcards filter = .error fault ↔
        filter.isEmpty = false ∧ Findings.First filter.FaultAt fault := by
  cases hempty : filter.isEmpty with
  | true => simp [ofFilter, hempty]
  | false =>
      have hjudged := Filter.judged wildcards filter
      have hread : ofFilter wildcards filter = ofNonempty wildcards filter := by
        simp [ofFilter, hempty]
      rw [hread]
      refine ⟨?_, fun fault => ?_⟩
      · simpa using hjudged.exists_ok_iff
      · simpa using hjudged.eq_error_iff

example (wildcards : Wildcards) :
    Formula.ofFilter wildcards (.object [
      ("age", .object [("$gt", .scalar (.int 1)), ("$between", .list [.scalar (.int 2)]),
        ("$near", .scalar .null)]),
      ("$not", .list [])]) = .error (.rangeArity "age" .between 1) := by
  rfl

end FilterSql
