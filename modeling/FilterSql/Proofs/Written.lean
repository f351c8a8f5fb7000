import FilterSql.Proofs.Parts

/-! What reading a filter accepts. Beside an operator stands what its category demands, and a key is
a connective or the name of a column; everything else is a fault. -/

namespace FilterSql

/-- The written filter is what the operator takes, and the operand is what it becomes. -/
inductive Operand.Written (wildcards : Wildcards) (operator : Operator) : Filter → Operand → Prop
  where
  | value {value : Scalar}
      (hcategory : operator.category = .comparison ∨ operator.category = .regex) :
      Written wildcards operator (.scalar value) (.scalar value)
  | pattern {value : Scalar} {text : String} (hcategory : operator.category = .pattern)
      (htext : value.patternText? = some text) :
      Written wildcards operator (.scalar value) (.scalar (.text (wildcards.surround text)))
  | range {low high : Scalar} (hcategory : operator.category = .range) :
      Written wildcards operator (.list [.scalar low, .scalar high]) (.range low high)
  | list {items : List Filter} {values : List Scalar} (hcategory : operator.category = .membership)
      (hitems : items.mapM Filter.scalar? = some values) :
      Written wildcards operator (.list items) (.list values)
  | column {other : String} (hcategory : operator.category = .columnCompare) :
      Written wildcards operator (.scalar (.text other)) (.column other)

theorem Filter.scalar?_eq_some {filter : Filter} {value : Scalar} :
    filter.scalar? = some value ↔ filter = .scalar value := by
  cases filter <;> simp [scalar?]

theorem Filter.mapM_scalar?_eq_some {items : List Filter} {values : List Scalar} :
    items.mapM scalar? = some values ↔ items = values.map .scalar := by
  rw [mapM_eq_some]
  simp only [scalar?_eq_some]
  constructor
  · intro h
    induction h with
    | nil => rfl
    | cons hitem h ih => rw [hitem, ih, List.map_cons]
  · rintro rfl
    rw [List.forall₂_map_left_iff]
    exact List.forall₂_same.2 fun _ _ => rfl

theorem Operand.written_of_ofFilter {wildcards : Wildcards} {identifier : String}
    {operator : Operator} {written : Filter} {operand : Operand}
    (h : ofFilter wildcards identifier operator written = .ok operand) :
    Operand.Written wildcards operator written operand := by
  unfold ofFilter at h
  split at h
  · next hcategory =>
      split at h
      · obtain rfl := Except.ok.inj h
        exact .value (.inl hcategory)
      · simp [unfit] at h
  · next hcategory =>
      split at h
      · obtain rfl := Except.ok.inj h
        exact .value (.inr hcategory)
      · simp [unfit] at h
  · next hcategory =>
      split at h
      · next text htext =>
          obtain rfl := Except.ok.inj h
          obtain ⟨value, hvalue, htext⟩ := Option.bind_eq_some_iff.1 htext
          obtain rfl := Filter.scalar?_eq_some.1 hvalue
          exact .pattern hcategory htext
      · simp [unfit] at h
  · next hcategory =>
      split at h
      · next items =>
          split at h
          · next low high hitems =>
              obtain rfl := Except.ok.inj h
              simp only [mapM_eq_some, Filter.scalar?_eq_some, List.forall₂_cons_right_iff,
                List.forall₂_nil_right_iff] at hitems
              obtain ⟨_, _, rfl, ⟨_, _, rfl, rfl, rfl⟩, rfl⟩ := hitems
              exact .range hcategory
          · simp at h
          · simp [unfit] at h
      · simp [unfit] at h
  · next hcategory =>
      split at h
      · next item items =>
          split at h
          · next values hitems =>
              obtain rfl := Except.ok.inj h
              exact .list hcategory hitems
          · simp [unfit] at h
      · simp [unfit] at h
  · next hcategory =>
      split at h
      · next other =>
          obtain rfl := Except.ok.inj h
          exact .column hcategory
      · simp [unfit] at h
  · simp at h

theorem Check.ofEntry_eq_ok {wildcards : Wildcards} {identifier : String} {entry : String × Filter}
    {check : Check} (h : ofEntry wildcards identifier entry = .ok check) :
    Operator.ofToken? entry.1 = some check.operator ∧
      Operand.Written wildcards check.operator entry.2 check.operand := by
  unfold ofEntry at h
  split at h
  · simp at h
  · next operator hoperator =>
      obtain ⟨operand, hoperand, rfl⟩ := map_eq_ok.1 h
      exact ⟨hoperator, Operand.written_of_ofFilter hoperand⟩

theorem Operator.ofToken?_eq_some {token : String} {operator : Operator}
    (h : ofToken? token = some operator) :
    token = "$notIs" ∧ operator = .isNot ∨ token = operator.token := by
  unfold ofToken? at h
  split at h
  · next htoken => exact .inl ⟨htoken, (Option.some.inj h).symm⟩
  · have htoken := List.find?_some h
    exact .inr (of_decide_eq_true htoken).symm

theorem Operator.head?_of_ofToken? {token : String} {operator : Operator}
    (h : ofToken? token = some operator) : token.toList.head? = some '$' := by
  rcases ofToken?_eq_some h with ⟨rfl, -⟩ | rfl
  · rfl
  · cases operator <;> rfl

theorem EntryKey.ofText_eq_ok {text : String} {key : EntryKey} (h : ofText text = .ok key) :
    text = "$and" ∧ key = .group .and ∨ text = "$or" ∧ key = .group .or ∨
      text.toList.head? ≠ some '$' ∧ key = .column text := by
  unfold ofText at h
  split at h
  · split at h
    · simp at h
    · next htoken =>
        obtain rfl := Except.ok.inj h
        exact .inl ⟨(Operator.ofToken?_eq_some htoken).resolve_left (by simp), rfl⟩
    · next htoken =>
        obtain rfl := Except.ok.inj h
        exact .inr (.inl ⟨(Operator.ofToken?_eq_some htoken).resolve_left (by simp), rfl⟩)
    · simp at h
  · next hhead =>
      obtain rfl := Except.ok.inj h
      exact .inr (.inr ⟨hhead, rfl⟩)

theorem EntryKey.ofText_token (connective : Connective) :
    ofText connective.operator.token = .ok (.group connective) := by
  cases connective <;> decide

theorem EntryKey.ofText_of_ne {key : String} (hkey : key.toList.head? ≠ some '$') :
    ofText key = .ok (.column key) :=
  if_neg hkey

/-! ### Successful reading -/

/-- The token of a connective is marked like those of all operators. -/
theorem Connective.head?_token (connective : Connective) :
    connective.operator.token.toList.head? = some '$' := by
  cases connective <;> decide

/-- The entry that a key with its filter becomes. The members of a group are related to the items
they are read from. -/
inductive Entry.ReadFrom (wildcards : Wildcards) (R : Filter → Formula → Prop) :
    String × Filter → Entry → Prop where
  | column {key : String} {written : Filter} {test : Test}
      (hkey : key.toList.head? ≠ some '$')
      (htest : Test.ofFilter wildcards key written = .ok test) :
      ReadFrom wildcards R (key, written) (.column key test)
  | group (connective : Connective) {items : List Filter} {members : List Formula}
      (hne : items ≠ []) (hmembers : List.Forall₂ R items members) :
      ReadFrom wildcards R (connective.operator.token, .list items) (.group connective members)

theorem Entry.readFrom_of_ofPair {wildcards : Wildcards} {R : Filter → Formula → Prop}
    {pair : String × Filter} {entry : Entry}
    (hitems : ∀ items, pair.2 = .list items → ∀ item ∈ items, ∀ formula,
      Formula.ofNonempty wildcards item = .ok formula → R item formula)
    (h : ofPair wildcards pair = .ok entry) : ReadFrom wildcards R pair entry := by
  have hgroup : ∀ {connective : Connective} {written : Filter} {members : List Formula},
      pair.2 = written → Formula.ofMembers wildcards connective written = .ok members →
        ∃ items, written = .list items ∧ items ≠ [] ∧ List.Forall₂ R items members := by
    intro connective written members hwritten hmembers
    unfold Formula.ofMembers at hmembers
    split at hmembers
    · simp at hmembers
    · rw [Formula.ofItems_eq_mapM] at hmembers
      exact ⟨_, rfl, by simp, forall₂_of_mapM (hitems _ hwritten) hmembers⟩
    · simp at hmembers
    · simp at hmembers
  obtain ⟨key, written⟩ := pair
  obtain ⟨entryKey, hkey, h⟩ := bind_eq_ok.1 h
  rcases EntryKey.ofText_eq_ok hkey with ⟨rfl, rfl⟩ | ⟨rfl, rfl⟩ | ⟨hhead, rfl⟩
  · obtain ⟨members, hmembers, rfl⟩ := map_eq_ok.1 h
    obtain ⟨items, rfl, hne, hmembers⟩ := hgroup rfl hmembers
    exact .group .and hne hmembers
  · obtain ⟨members, hmembers, rfl⟩ := map_eq_ok.1 h
    obtain ⟨items, rfl, hne, hmembers⟩ := hgroup rfl hmembers
    exact .group .or hne hmembers
  · obtain ⟨test, htest, rfl⟩ := map_eq_ok.1 h
    exact .column hhead htest

/-- What holds of a list and the disjunction of what its items are read as, and of an object and the
conjunction of what its entries are read as, holds of every filter and what it is read as. -/
@[elab_as_elim]
theorem Formula.read_induction {wildcards : Wildcards} {motive : Filter → Formula → Prop}
    (list : ∀ items members, items ≠ [] → List.Forall₂ motive items members →
      motive (.list items) (.disjunction members))
    (object : ∀ pairs entries, pairs ≠ [] →
      List.Forall₂ (Entry.ReadFrom wildcards motive) pairs entries →
        motive (.object pairs) (.conjunction entries)) :
    ∀ filter formula, ofNonempty wildcards filter = .ok formula → motive filter formula := by
  intro filter
  induction filter using Filter.induction with
  | scalar value =>
      intro formula h
      simp [ofNonempty] at h
  | list items ih =>
      intro formula h
      cases items with
      | nil => simp [ofNonempty] at h
      | cons item items =>
          rw [ofNonempty] at h
          obtain ⟨members, hmembers, rfl⟩ := map_eq_ok.1 h
          rw [ofItems_eq_mapM] at hmembers
          exact list _ _ (by simp) (forall₂_of_mapM ih hmembers)
  | object pairs ih =>
      intro formula h
      cases pairs with
      | nil => simp [ofNonempty] at h
      | cons pair pairs =>
          rw [ofNonempty] at h
          obtain ⟨entries, hentries, rfl⟩ := map_eq_ok.1 h
          rw [ofEntries_eq_mapM] at hentries
          refine object _ _ (by simp) (forall₂_of_mapM ?_ hentries)
          intro pair hpair entry hentry
          refine Entry.readFrom_of_ofPair ?_ hentry
          intro items hwritten
          exact ih pair.1 items (hwritten ▸ hpair)

end FilterSql
