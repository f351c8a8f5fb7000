import FilterSql.Proofs.Checks

/-! Wildcards around patterns. A filter is read alike whatever the wildcards are, but for the texts
that a pattern operator compares with: each of them is put between the wildcards once, at every
depth, and nothing else is touched. -/

namespace FilterSql

theorem Wildcards.surround_exact (text : String) : exact.surround text = text := by
  simp [exact, surround]

/-! ### Formulas with wildcards -/

variable (wildcards : Wildcards)

def Operand.surround : Operand → Operand
  | .scalar (.text text) => .scalar (.text (wildcards.surround text))
  | operand => operand

/-- Only a pattern operator has its operand changed. -/
def Check.surround (check : Check) : Check :=
  { check with
    operand :=
      if check.operator.category = .pattern then check.operand.surround wildcards
      else check.operand }

/-- A bare value is no pattern. -/
def Test.surround : Test → Test
  | .equals value => .equals value
  | .every checks => .every (checks.map (Check.surround wildcards))

def Leaf.surround (leaf : Leaf) : Leaf := { leaf with check := leaf.check.surround wildcards }

namespace Formula

mutual

/-- Puts the patterns of a formula between the wildcards. -/
def surround : Formula → Formula
  | .conjunction entries => .conjunction (surroundEntries entries)
  | .disjunction branches => .disjunction (surroundBranches branches)
termination_by structural formula => formula

def surroundBranches : List Formula → List Formula
  | [] => []
  | branch :: branches => surround branch :: surroundBranches branches
termination_by structural branches => branches

def surroundEntry : Entry → Entry
  | .column name test => .column name (test.surround wildcards)
  | .group connective members => .group connective (surroundBranches members)
termination_by structural entry => entry

def surroundEntries : List Entry → List Entry
  | [] => []
  | entry :: entries => surroundEntry entry :: surroundEntries entries
termination_by structural entries => entries

end

theorem surroundBranches_eq_map (branches : List Formula) :
    surroundBranches wildcards branches = branches.map (surround wildcards) := by
  induction branches with
  | nil => rfl
  | cons branch branches ih => rw [surroundBranches, ih, List.map_cons]

theorem surroundEntries_eq_map (entries : List Entry) :
    surroundEntries wildcards entries = entries.map (surroundEntry wildcards) := by
  induction entries with
  | nil => rfl
  | cons entry entries ih => rw [surroundEntries, ih, List.map_cons]

end Formula

/-! ### Leaves -/

theorem Leaf.map_surround_below (position : Position) (leaves : List Leaf) :
    (leaves.map (surround wildcards)).map (below position) =
      (leaves.map (below position)).map (surround wildcards) := by
  rw [List.map_map, List.map_map]
  rfl

theorem Test.leaves_surround (test : Test) :
    (test.surround wildcards).leaves = test.leaves.map (Leaf.surround wildcards) := by
  cases test with
  | equals value => rfl
  | every checks =>
      simp only [surround, leaves, List.zipIdx_map, List.map_map, List.length_map]
      rfl

namespace Formula

theorem branchesLeaves_surround {members : List Formula} (siblings index : Nat)
    (hmembers : ∀ member ∈ members,
      (member.surround wildcards).leaves = member.leaves.map (Leaf.surround wildcards)) :
    branchesLeaves siblings index (surroundBranches wildcards members) =
      (branchesLeaves siblings index members).map (Leaf.surround wildcards) := by
  induction members generalizing index with
  | nil => rfl
  | cons member members ih =>
      rw [List.forall_mem_cons] at hmembers
      rw [surroundBranches, branchesLeaves, branchesLeaves, ih _ hmembers.2, hmembers.1,
        Leaf.map_surround_below, List.map_append]

/-- The leaves stand where they stood. -/
theorem leaves_surround (formula : Formula) :
    (formula.surround wildcards).leaves = formula.leaves.map (Leaf.surround wildcards) := by
  induction formula using Formula.induction with
  | disjunction branches ih =>
      rw [surround, leaves, leaves, branchesLeaves_surround wildcards _ _ ih,
        surroundBranches_eq_map, List.length_map]
  | conjunction entries ih =>
      have hentry : ∀ entry ∈ entries, entryLeaves (surroundEntry wildcards entry) =
          (entryLeaves entry).map (Leaf.surround wildcards) := by
        intro entry hentry
        cases entry with
        | column name test => exact test.leaves_surround wildcards
        | group connective members =>
            rw [surroundEntry, entryLeaves, entryLeaves,
              branchesLeaves_surround wildcards _ _ (ih connective members hentry),
              surroundBranches_eq_map, List.length_map]
      rw [surround, leaves, leaves, surroundEntries_eq_map, List.length_map,
        entriesLeaves_eq_flatMap, entriesLeaves_eq_flatMap, List.zipIdx_map, List.flatMap_map,
        List.map_flatMap]
      refine List.flatMap_congr fun entry hmem => ?_
      rw [← Leaf.map_surround_below, ← hentry _ (List.fst_mem_of_mem_zipIdx hmem)]
      rfl

end Formula

/-! ### Reading -/

theorem Operand.ofFilter_pattern {operator : Operator} (hcategory : operator.category = .pattern)
    (column : String) (written : Filter) :
    ofFilter wildcards column operator written =
      (ofFilter .exact column operator written).map (surround wildcards) := by
  simp only [ofFilter, hcategory, Wildcards.surround_exact]
  cases written.scalar?.bind Scalar.patternText? <;> rfl

theorem Operand.ofFilter_of_ne_pattern {operator : Operator}
    (hcategory : operator.category ≠ .pattern) (column : String) (written : Filter) :
    ofFilter wildcards column operator written = ofFilter .exact column operator written := by
  unfold ofFilter
  cases hfound : operator.category with
  | pattern => exact absurd hfound hcategory
  | _ => rfl

theorem Check.ofEntry_eq_map (column : String) (entry : String × Filter) :
    ofEntry wildcards column entry = (ofEntry .exact column entry).map (surround wildcards) := by
  unfold ofEntry
  cases Operator.ofToken? entry.1 with
  | none => rfl
  | some operator =>
      dsimp only
      by_cases hcategory : operator.category = .pattern
      · rw [Operand.ofFilter_pattern wildcards hcategory, map_map, map_map]
        simp only [Function.comp_def, surround, if_pos hcategory]
      · rw [Operand.ofFilter_of_ne_pattern wildcards hcategory, map_map]
        simp only [Function.comp_def, surround, if_neg hcategory]

theorem Test.ofFilter_eq_map (column : String) (written : Filter) :
    ofFilter wildcards column written =
      (ofFilter .exact column written).map (surround wildcards) := by
  match written with
  | .scalar value => rfl
  | .list items => rfl
  | .object [] => rfl
  | .object (entry :: entries) =>
      have hchecks : (entry :: entries).mapM (Check.ofEntry wildcards column) =
          ((entry :: entries).mapM (Check.ofEntry .exact column)).map
            (List.map (Check.surround wildcards)) :=
        mapM_eq_map fun entry _ => Check.ofEntry_eq_map wildcards column entry
      rw [ofFilter, ofFilter, hchecks, map_map, map_map]
      rfl

namespace Formula

/-- With wildcards the filter is read as the surrounded formula. -/
def ReadsSurrounded (filter : Filter) : Prop :=
  ofNonempty wildcards filter = (ofNonempty .exact filter).map (surround wildcards)

variable {wildcards}

theorem ofItems_eq_map {items : List Filter}
    (hitems : ∀ item ∈ items, ReadsSurrounded wildcards item) :
    ofItems wildcards items = (ofItems .exact items).map (surroundBranches wildcards) := by
  rw [ofItems_eq_mapM, ofItems_eq_mapM, funext (surroundBranches_eq_map wildcards)]
  exact mapM_eq_map hitems

theorem ofMembers_eq_map {connective : Connective} {written : Filter}
    (hitems : ∀ items, written = .list items → ∀ item ∈ items, ReadsSurrounded wildcards item) :
    ofMembers wildcards connective written =
      (ofMembers .exact connective written).map (surroundBranches wildcards) := by
  match written with
  | .scalar value => rfl
  | .object entries => rfl
  | .list [] => rfl
  | .list (item :: items) => exact ofItems_eq_map (hitems _ rfl)

theorem ofPair_eq_map {pair : String × Filter}
    (hitems : ∀ items, pair.2 = .list items → ∀ item ∈ items, ReadsSurrounded wildcards item) :
    Entry.ofPair wildcards pair =
      (Entry.ofPair .exact pair).map (surroundEntry wildcards) := by
  unfold Entry.ofPair
  cases EntryKey.ofText pair.1 with
  | error fault => rfl
  | ok key =>
      cases key with
      | column name =>
          show (Test.ofFilter wildcards name pair.2).map (Entry.column name) =
            ((Test.ofFilter .exact name pair.2).map (Entry.column name)).map _
          rw [Test.ofFilter_eq_map, map_map, map_map]
          rfl
      | group connective =>
          show (ofMembers wildcards connective pair.2).map (Entry.group connective) =
            ((ofMembers .exact connective pair.2).map (Entry.group connective)).map _
          rw [ofMembers_eq_map hitems, map_map, map_map]
          rfl

theorem readsSurrounded (filter : Filter) : ReadsSurrounded wildcards filter := by
  induction filter using Filter.induction with
  | scalar value => rfl
  | list items ih =>
      cases items with
      | nil => rfl
      | cons item items =>
          rw [ReadsSurrounded, ofNonempty, ofNonempty, ofItems_eq_map ih, map_map, map_map]
          rfl
  | object pairs ih =>
      cases pairs with
      | nil => rfl
      | cons pair pairs =>
          have hentries : (pair :: pairs).mapM (Entry.ofPair wildcards) =
              ((pair :: pairs).mapM (Entry.ofPair .exact)).map
                (List.map (surroundEntry wildcards)) := by
            refine mapM_eq_map fun pair hpair => ofPair_eq_map fun items hwritten => ?_
            exact ih pair.1 items (hwritten ▸ hpair)
          rw [ReadsSurrounded, ofNonempty, ofNonempty, ofEntries_eq_mapM, ofEntries_eq_mapM,
            hentries, map_map, map_map, ← funext (surroundEntries_eq_map wildcards)]
          rfl

/-- What a pattern operator compares with is read as a text, even if it is written as a number. -/
theorem exists_text_of_pattern {filter : Filter} {formula : Formula}
    (h : ofFilter wildcards filter = .ok formula) : ∀ check ∈ formula.checks,
      check.operator.category = .pattern → ∃ text, check.operand = .scalar (.text text) := by
  refine forall_checks_of_ofFilter ?_ ?_ h
  · intro value hpattern
    simp [Operator.category] at hpattern
  · intro column entry check hread hpattern
    have hwritten := (Check.ofEntry_eq_ok hread).2
    generalize entry.2 = written, check.operand = operand at hwritten ⊢
    cases hwritten with
    | pattern => exact ⟨_, rfl⟩
    | value hcategory => simp [hpattern] at hcategory
    | range hcategory => simp [hpattern] at hcategory
    | list hcategory => simp [hpattern] at hcategory
    | column hcategory => simp [hpattern] at hcategory

/-- The wildcards matter to the patterns of a filter only. Whatever they are, reading fails in the
same way, and what is read differs from what is read without any in that the text of each pattern,
wherever it stands, is put between them once. All other operands are read as they are written. -/
theorem ofFilter_surrounds_patterns (wildcards : Wildcards) (filter : Filter) :
    ofFilter wildcards filter = (ofFilter .exact filter).map (surround wildcards) ∧
    ∀ formula, ofFilter .exact filter = .ok formula →
      (formula.surround wildcards).leaves = formula.leaves.map (Leaf.surround wildcards) ∧
      ∀ leaf ∈ formula.leaves,
        (leaf.check.operator.category = .pattern →
          ∃ text, leaf.check.operand = .scalar (.text text) ∧
            (leaf.surround wildcards).check = ⟨leaf.check.operator,
              .scalar (.text (wildcards.before ++ text ++ wildcards.after))⟩) ∧
        (leaf.check.operator.category ≠ .pattern → leaf.surround wildcards = leaf) := by
  constructor
  · unfold ofFilter
    split
    · rfl
    · exact readsSurrounded filter
  · intro formula hformula
    refine ⟨formula.leaves_surround wildcards, fun leaf hleaf => ⟨?_, ?_⟩⟩
    · intro hpattern
      have hcheck : leaf.check ∈ formula.checks := List.mem_map_of_mem hleaf
      obtain ⟨text, htext⟩ := exists_text_of_pattern hformula _ hcheck hpattern
      refine ⟨text, htext, ?_⟩
      rw [Leaf.surround, Check.surround, if_pos hpattern, htext]
      rfl
    · intro hne
      rw [Leaf.surround, Check.surround, if_neg hne]

/-- The wildcards have wildcards in them, and a text that looks like a pattern is a value. -/
theorem ofFilter_surrounds_patterns_nested :
    let filter := Filter.object [
      ("a", .scalar (.text "%x%")),
      ("$or", .list [
        .list [.object [("b", .object [("$like", .scalar (.int 7)),
          ("$in", .list [.scalar (.text "y")])])]],
        .object [("c", .object [("$regexp", .scalar (.text "z"))])]])]
    let wildcards : Wildcards := ⟨"%_", "%%"⟩
    ∃ formula formula', ofFilter .exact filter = .ok formula ∧
      ofFilter wildcards filter = .ok formula' ∧
      formula.checks = [⟨.eq, .scalar (.text "%x%")⟩, ⟨.like, .scalar (.text "7")⟩,
        ⟨.isIn, .list [.text "y"]⟩, ⟨.regexp, .scalar (.text "z")⟩] ∧
      formula'.checks = [⟨.eq, .scalar (.text "%x%")⟩, ⟨.like, .scalar (.text "%_7%%")⟩,
        ⟨.isIn, .list [.text "y"]⟩, ⟨.regexp, .scalar (.text "z")⟩] := by
  intro filter wildcards
  obtain ⟨formula, hformula, hchecks⟩ : ∃ formula, ofFilter .exact filter = .ok formula ∧
      formula.checks = [⟨.eq, .scalar (.text "%x%")⟩, ⟨.like, .scalar (.text "7")⟩,
        ⟨.isIn, .list [.text "y"]⟩, ⟨.regexp, .scalar (.text "z")⟩] := ⟨_, by cbv, by cbv⟩
  obtain ⟨hread, hformulas⟩ := ofFilter_surrounds_patterns wildcards filter
  obtain ⟨hleaves, -⟩ := hformulas formula hformula
  rw [hformula] at hread
  refine ⟨formula, formula.surround wildcards, hformula, hread, hchecks, ?_⟩
  calc (formula.surround wildcards).checks
      = (formula.leaves.map (Leaf.surround wildcards)).map Leaf.check := by rw [checks, hleaves]
    _ = formula.checks.map (Check.surround wildcards) := by
        rw [checks, List.map_map, List.map_map]
        rfl
    _ = _ := by
        rw [hchecks]
        decide

end Formula

end FilterSql
