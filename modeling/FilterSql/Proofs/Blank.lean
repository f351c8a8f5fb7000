import FilterSql.Proofs.Written

/-! Blanking out the values of a filter. Every scalar is replaced by one and the same text, every
list of values by a list of one; only the operands of column comparisons stay. Reading commutes with
blanking, and so does lowering, so the expression of a filter is known up to its values once the
blank filter is known. -/

namespace FilterSql

def Scalar.blank : Scalar := .text ""

namespace Filter

mutual

/-- Blanks out a filter that stands beside an operator of the category, if beside any. -/
def blankBeside (category : Option Operator.Category) : Filter → Filter
  | .scalar value => .scalar (if category = some .columnCompare then value else .blank)
  | .list items =>
    if category = some .membership ∧ (items.mapM scalar?).isSome then
      .list [.scalar .blank]
    else
      .list (blankItems items)
  | .object entries => .object (blankEntries entries)
termination_by structural written => written

def blankItems : List Filter → List Filter
  | [] => []
  | item :: items => blankBeside none item :: blankItems items
termination_by structural items => items

def blankEntries : List (String × Filter) → List (String × Filter)
  | [] => []
  | (key, written) :: entries =>
    (key, blankBeside ((Operator.ofToken? key).map Operator.category) written) ::
      blankEntries entries
termination_by structural entries => entries

end

/-- Two filters with the same blank differ in their values only. -/
def blank (filter : Filter) : Filter := filter.blankBeside none

def blankEntry (entry : String × Filter) : String × Filter :=
  (entry.1, entry.2.blankBeside ((Operator.ofToken? entry.1).map Operator.category))

theorem blankItems_eq_map (items : List Filter) : blankItems items = items.map blank := by
  induction items with
  | nil => rfl
  | cons item items ih => rw [blankItems, ih, List.map_cons, blank]

theorem blankEntries_eq_map (entries : List (String × Filter)) :
    blankEntries entries = entries.map blankEntry := by
  induction entries with
  | nil => rfl
  | cons entry entries ih => rw [blankEntries, ih, List.map_cons, blankEntry]

theorem isEmpty_blank (filter : Filter) : filter.blank.isEmpty = filter.isEmpty := by
  cases filter with
  | scalar value => rfl
  | list items => simp [blank, blankBeside, blankItems_eq_map, isEmpty]
  | object entries => simp [blank, blankBeside, blankEntries_eq_map, isEmpty]

end Filter

def Operand.blank : Operand → Operand
  | .scalar _ => .scalar .blank
  | .list _ => .list [.blank]
  | .range _ _ => .range .blank .blank
  | .column name => .column name

def Check.blank (check : Check) : Check := ⟨check.operator, check.operand.blank⟩

def Test.blank : Test → Test
  | .equals _ => .equals .blank
  | .every checks => .every (checks.map Check.blank)

namespace Formula

mutual

def blank : Formula → Formula
  | .conjunction entries => .conjunction (blankEntries entries)
  | .disjunction branches => .disjunction (blankBranches branches)
termination_by structural formula => formula

def blankBranches : List Formula → List Formula
  | [] => []
  | branch :: branches => blank branch :: blankBranches branches
termination_by structural branches => branches

def blankEntry : Entry → Entry
  | .column name test => .column name test.blank
  | .group connective members => .group connective (blankBranches members)
termination_by structural entry => entry

def blankEntries : List Entry → List Entry
  | [] => []
  | entry :: entries => blankEntry entry :: blankEntries entries
termination_by structural entries => entries

end

theorem blankBranches_eq_map (branches : List Formula) :
    blankBranches branches = branches.map blank := by
  induction branches with
  | nil => rfl
  | cons branch branches ih => rw [blankBranches, ih, List.map_cons]

theorem blankEntries_eq_map (entries : List Entry) :
    blankEntries entries = entries.map blankEntry := by
  induction entries with
  | nil => rfl
  | cons entry entries ih => rw [blankEntries, ih, List.map_cons]

end Formula

/-! ### Reading -/

variable {wildcards : Wildcards}

theorem Operand.ofFilter_blank {identifier : String} {operator : Operator} {written : Filter}
    {operand : Operand} (h : ofFilter wildcards identifier operator written = .ok operand) :
    ofFilter .exact identifier operator (written.blankBeside (some operator.category)) =
      .ok operand.blank := by
  cases written_of_ofFilter h with
  | value hcategory =>
      rcases hcategory with hcategory | hcategory <;>
        simp [ofFilter, Filter.blankBeside, hcategory, Operand.blank]
  | pattern hcategory htext =>
      simp [ofFilter, Filter.blankBeside, hcategory, Operand.blank, Filter.scalar?, Scalar.blank,
        Scalar.patternText?, Wildcards.exact, Wildcards.surround]
  | range hcategory =>
      simp [ofFilter, Filter.blankBeside, Filter.blankItems, hcategory, Operand.blank,
        Filter.scalar?]
  | list hcategory hitems =>
      simp [ofFilter, Filter.blankBeside, hcategory, hitems, Operand.blank, Filter.scalar?]
  | column hcategory =>
      simp [ofFilter, Filter.blankBeside, hcategory, Operand.blank]

theorem Check.ofEntry_blank {identifier : String} {entry : String × Filter} {check : Check}
    (h : ofEntry wildcards identifier entry = .ok check) :
    ofEntry .exact identifier (Filter.blankEntry entry) = .ok check.blank := by
  unfold ofEntry at h
  split at h
  · simp at h
  · next operator htoken =>
      obtain ⟨operand, hoperand, rfl⟩ := map_eq_ok.1 h
      have hblank := Operand.ofFilter_blank hoperand
      simp only [ofEntry, Filter.blankEntry, htoken, Option.map_some, hblank, Except.map, blank]

theorem Test.ofFilter_blank {identifier : String} {written : Filter} {test : Test}
    (h : ofFilter wildcards identifier written = .ok test) :
    ofFilter .exact identifier written.blank = .ok test.blank := by
  unfold ofFilter at h
  split at h
  · obtain rfl := Except.ok.inj h
    rfl
  · simp at h
  · simp at h
  · next entry entries =>
      obtain ⟨checks, hchecks, rfl⟩ := map_eq_ok.1 h
      have hblank : ((entry :: entries).map Filter.blankEntry).mapM
          (Check.ofEntry .exact identifier) = .ok (checks.map Check.blank) :=
        mapM_map_eq_ok (fun _ _ _ => Check.ofEntry_blank) hchecks
      rw [Filter.blank, Filter.blankBeside, Filter.blankEntries_eq_map, List.map_cons, ofFilter,
        ← List.map_cons, hblank]
      rfl

namespace Formula

/-- Reading the blank filter gives the blank formula. -/
def ReadsBlank (wildcards : Wildcards) (filter : Filter) : Prop :=
  ∀ formula, ofNonempty wildcards filter = .ok formula →
    ofNonempty .exact filter.blank = .ok formula.blank

theorem ofItems_blank {items : List Filter} {members : List Formula}
    (hmembers : List.Forall₂ (fun item member =>
      ofNonempty .exact item.blank = .ok member.blank) items members) :
    ofItems .exact (Filter.blankItems items) = .ok (blankBranches members) := by
  rw [ofItems_eq_mapM, Filter.blankItems_eq_map, blankBranches_eq_map, mapM_eq_ok,
    List.forall₂_map_left_iff, List.forall₂_map_right_iff]
  exact hmembers

theorem ofPair_blank {pair : String × Filter} {entry : Entry}
    (h : Entry.ReadFrom wildcards (fun item member =>
      ofNonempty .exact item.blank = .ok member.blank) pair entry) :
    Entry.ofPair .exact (Filter.blankEntry pair) = .ok (blankEntry entry) := by
  cases h with
  | @column key written test hkey htest =>
      have htoken : Operator.ofToken? key = none := by
        cases htoken : Operator.ofToken? key with
        | none => rfl
        | some operator => exact absurd (Operator.head?_of_ofToken? htoken) hkey
      refine bind_eq_ok.2 ⟨_, EntryKey.ofText_of_ne hkey, map_eq_ok.2 ⟨_, ?_, rfl⟩⟩
      rw [Filter.blankEntry, htoken]
      exact Test.ofFilter_blank htest
  | @group connective items members hne hmembers =>
      have hread := ofItems_blank hmembers
      obtain ⟨item, items, rfl⟩ := List.exists_cons_of_ne_nil hne
      cases connective <;>
        exact bind_eq_ok.2 ⟨_, EntryKey.ofText_token _, map_eq_ok.2 ⟨_, hread, rfl⟩⟩

theorem readsBlank (filter : Filter) : ReadsBlank wildcards filter := by
  intro formula h
  refine read_induction ?_ ?_ filter formula h
  · intro items members hne hmembers
    have hread := ofItems_blank hmembers
    obtain ⟨item, items, rfl⟩ := List.exists_cons_of_ne_nil hne
    exact map_eq_ok.2 ⟨_, hread, rfl⟩
  · intro pairs entries hne hentries
    have hread : (pairs.map Filter.blankEntry).mapM (Entry.ofPair .exact) =
        .ok (entries.map blankEntry) := by
      rw [mapM_eq_ok, List.forall₂_map_left_iff, List.forall₂_map_right_iff]
      exact hentries.imp fun _ _ => ofPair_blank
    rw [← ofEntries_eq_mapM, ← Filter.blankEntries_eq_map, ← blankEntries_eq_map] at hread
    obtain ⟨pair, pairs, rfl⟩ := List.exists_cons_of_ne_nil hne
    exact map_eq_ok.2 ⟨_, hread, rfl⟩

theorem ofFilter_blank {filter : Filter} {formula : Formula}
    (h : ofFilter wildcards filter = .ok formula) :
    ofFilter .exact filter.blank = .ok formula.blank := by
  unfold ofFilter at h ⊢
  rw [filter.isEmpty_blank]
  split at h
  · next hempty =>
      obtain rfl := Except.ok.inj h
      rw [if_pos hempty]
      rfl
  · next hempty =>
      rw [if_neg hempty]
      exact readsBlank filter formula h

end Formula

end FilterSql
