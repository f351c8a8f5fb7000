import FilterSql.Proofs.Slots
import Mathlib

/-! The parameters of a formula, read off its tree. A leaf is a check with the positions that lead
to it from the root; its operand is bound under the name that these positions spell. One compilation
binds the leaves from left to right, each under a name of its own, and the text has the slots of
these names in the same order. -/

namespace FilterSql

/-! ### Leaves -/

/-- Where a part stands among the parts of its parent. -/
structure Position where
  index : Nat
  siblings : Nat
  deriving DecidableEq

/-- A check of a formula, and the positions that lead to it from the root down. -/
structure Leaf where
  positions : List Position
  check : Check
  deriving DecidableEq

/-- The leaf as it is seen from one level further up. -/
def Leaf.below (position : Position) (leaf : Leaf) : Leaf :=
  { leaf with positions := position :: leaf.positions }

/-- A bare value is a check for equality. -/
def Test.leaves : Test → List Leaf
  | .equals value => [⟨[], ⟨.eq, .scalar value⟩⟩]
  | .every checks => checks.zipIdx.map fun check => ⟨[⟨check.2, checks.length⟩], check.1⟩

namespace Formula

mutual

/-- The leaves from left to right. -/
def leaves : Formula → List Leaf
  | .conjunction entries => entriesLeaves entries.length 0 entries
  | .disjunction branches => branchesLeaves branches.length 0 branches
termination_by structural formula => formula

def branchesLeaves (siblings index : Nat) : List Formula → List Leaf
  | [] => []
  | branch :: branches =>
    (leaves branch).map (Leaf.below ⟨index, siblings⟩) ++
      branchesLeaves siblings (index + 1) branches
termination_by structural branches => branches

def entryLeaves : Entry → List Leaf
  | .column _ test => test.leaves
  | .group _ members => branchesLeaves members.length 0 members
termination_by structural entry => entry

def entriesLeaves (siblings index : Nat) : List Entry → List Leaf
  | [] => []
  | entry :: entries =>
    (entryLeaves entry).map (Leaf.below ⟨index, siblings⟩) ++
      entriesLeaves siblings (index + 1) entries
termination_by structural entries => entries

end

theorem branchesLeaves_eq_flatMap (siblings index : Nat) (branches : List Formula) :
    branchesLeaves siblings index branches =
      (branches.zipIdx index).flatMap fun branch =>
        (leaves branch.1).map (Leaf.below ⟨branch.2, siblings⟩) := by
  induction branches generalizing index with
  | nil => rfl
  | cons branch branches ih => rw [branchesLeaves, ih, List.zipIdx_cons, List.flatMap_cons]

theorem entriesLeaves_eq_flatMap (siblings index : Nat) (entries : List Entry) :
    entriesLeaves siblings index entries =
      (entries.zipIdx index).flatMap fun entry =>
        (entryLeaves entry.1).map (Leaf.below ⟨entry.2, siblings⟩) := by
  induction entries generalizing index with
  | nil => rfl
  | cons entry entries ih => rw [entriesLeaves, ih, List.zipIdx_cons, List.flatMap_cons]

/-- A leaf of a formula stands in one of its outermost parts. -/
theorem exists_position_of_mem_leaves {formula : Formula} {leaf : Leaf}
    (hleaf : leaf ∈ formula.leaves) :
    ∃ index positions, leaf.positions = ⟨index, formula.length⟩ :: positions := by
  cases formula with
  | conjunction entries =>
      rw [leaves, entriesLeaves_eq_flatMap, List.mem_flatMap] at hleaf
      obtain ⟨entry, -, hleaf⟩ := hleaf
      obtain ⟨inner, -, rfl⟩ := List.mem_map.1 hleaf
      exact ⟨entry.2, inner.positions, rfl⟩
  | disjunction branches =>
      rw [leaves, branchesLeaves_eq_flatMap, List.mem_flatMap] at hleaf
      obtain ⟨branch, -, hleaf⟩ := hleaf
      obtain ⟨inner, -, rfl⟩ := List.mem_map.1 hleaf
      exact ⟨branch.2, inner.positions, rfl⟩

end Formula

/-! ### Names -/

/-- An only part adds nothing to the name of its parent, one of several adds its index. -/
def Position.suffix (position : Position) : String :=
  if position.siblings = 1 then "" else "_" ++ toString position.index

/-- What the operand is bound to under the name. A range takes two parameters, a column none. -/
def Operand.arguments (name : String) : Operand → List (String × Argument)
  | .scalar value => [(name, .one value)]
  | .list values => [(name, .many values)]
  | .range low high => [(name ++ "_start", .one low), (name ++ "_end", .one high)]
  | .column _ => []

namespace Leaf

/-- The arguments of the leaf below a place with the name. -/
def argumentsBelow (name : String) (leaf : Leaf) : List (String × Argument) :=
  leaf.check.operand.arguments (name ++ String.join (leaf.positions.map Position.suffix))

/-- The arguments of the leaf when the outermost parts have the names. -/
def arguments (names : Nat → String) (leaf : Leaf) : List (String × Argument) :=
  match leaf.positions with
  | [] => []
  | outermost :: positions =>
    leaf.check.operand.arguments
      (names outermost.index ++ String.join (positions.map Position.suffix))

end Leaf

theorem partName_eq_append (parent : String) (siblings index : Nat) :
    partName parent siblings index = parent ++ Position.suffix ⟨index, siblings⟩ := by
  unfold partName Position.suffix
  split
  · rw [String.append_empty]
  · rw [String.append_assoc]

/-- Below the root the outermost position is one suffix among others. -/
theorem Formula.arguments_partName {formula : Formula} {leaf : Leaf}
    (hleaf : leaf ∈ formula.leaves) (name : String) :
    leaf.arguments (partName name formula.length) = leaf.argumentsBelow name := by
  obtain ⟨index, positions, hpositions⟩ := exists_position_of_mem_leaves hleaf
  rw [Leaf.arguments, Leaf.argumentsBelow, hpositions]
  simp only [partName_eq_append, List.map_cons, String.join_cons, String.append_assoc]

/-! ### Lowering -/

variable {scope : Scope}

theorem Predicate.Lowered.arguments {column : ColumnRef} {name : String} {check : Check}
    {predicate : Predicate} (h : Predicate.Lowered scope column name check predicate) :
    predicate.arguments = check.operand.arguments name := by
  cases h with
  | compare => rfl
  | member => rfl
  | range => rfl
  | columns => rfl

theorem Expr.arguments_of_ofTest {column : ColumnRef} {name : String} {test : Test} {part : Expr}
    (h : ofTest scope column name test = .ok part) :
    part.arguments = test.leaves.flatMap (Leaf.argumentsBelow name) := by
  cases test with
  | equals value =>
      rw [ofTest] at h
      obtain ⟨predicate, hpredicate, rfl⟩ := map_eq_ok.1 h
      rw [arguments, (Predicate.ofCheck_eq_ok.1 hpredicate).arguments]
      simp [Test.leaves, Leaf.argumentsBelow]
  | every checks =>
      rw [ofTest] at h
      obtain ⟨parts, hparts, rfl⟩ := map_eq_ok.1 h
      rw [ofChecks_eq_mapM, mapM_eq_ok] at hparts
      rw [arguments_ofParts, Test.leaves, List.flatMap_map]
      apply flatMap_of_forall₂ hparts
      intro check _ part hpart
      obtain ⟨predicate, hpredicate, rfl⟩ := map_eq_ok.1 hpart
      rw [arguments, (Predicate.ofCheck_eq_ok.1 hpredicate).arguments, partName_eq_append]
      simp [Leaf.argumentsBelow]

namespace Formula

/-- Whatever the outermost parts are called, lowering binds the leaves from left to right. -/
def BindsLeaves (scope : Scope) (formula : Formula) : Prop :=
  ∀ names parts, formula.parts scope names = .ok parts →
    parts.flatMap Expr.arguments = formula.leaves.flatMap (Leaf.arguments names)

theorem BindsLeaves.toExpr {formula : Formula} (hformula : formula.BindsLeaves scope)
    {name : String} {part : Expr} (h : formula.toExpr scope name = .ok part) :
    part.arguments = formula.leaves.flatMap (Leaf.argumentsBelow name) := by
  rw [toExpr_eq_map_parts] at h
  obtain ⟨parts, hparts, rfl⟩ := map_eq_ok.1 h
  rw [Expr.arguments_ofParts, hformula _ _ hparts]
  exact List.flatMap_congr fun leaf hleaf => arguments_partName hleaf name

theorem arguments_of_branchExprs {members : List Formula} {names : Nat → String}
    {parts : List Expr} (hmembers : ∀ member ∈ members, member.BindsLeaves scope)
    (h : branchExprs scope names 0 members = .ok parts) :
    parts.flatMap Expr.arguments =
      (branchesLeaves members.length 0 members).flatMap (Leaf.arguments names) := by
  rw [branchExprs_eq_mapM, mapM_eq_ok] at h
  rw [branchesLeaves_eq_flatMap, List.flatMap_assoc]
  apply flatMap_of_forall₂ h
  intro member hmember part hpart
  rw [(hmembers member.1 (List.fst_mem_of_mem_zipIdx hmember)).toExpr hpart, List.flatMap_map]
  rfl

theorem arguments_of_entryExpr {name : String} {entry : Entry} {part : Expr}
    (hmembers : ∀ connective members, entry = .group connective members →
      ∀ member ∈ members, member.BindsLeaves scope)
    (h : entryExpr scope name entry = .ok part) :
    part.arguments = (entryLeaves entry).flatMap (Leaf.argumentsBelow name) := by
  cases entry with
  | column identifier test =>
      simp only [entryExpr] at h
      split at h
      · exact Expr.arguments_of_ofTest h
      · simp at h
  | group connective members =>
      rw [entryExpr] at h
      obtain ⟨parts, hparts, rfl⟩ := map_eq_ok.1 h
      have hleaves := arguments_of_branchExprs (hmembers connective members rfl) hparts
      rw [Expr.arguments_ofParts, hleaves]
      apply List.flatMap_congr
      intro leaf hleaf
      -- the members of a group are named like the branches of a disjunction
      have hbranch : leaf ∈ (Formula.disjunction members).leaves := hleaf
      exact arguments_partName hbranch name

theorem bindsLeaves (formula : Formula) : formula.BindsLeaves scope := by
  induction formula using Formula.induction with
  | conjunction entries ih =>
      intro names parts h
      rw [Formula.parts, entryExprs_eq_mapM, mapM_eq_ok] at h
      rw [leaves, entriesLeaves_eq_flatMap, List.flatMap_assoc]
      apply flatMap_of_forall₂ h
      intro entry hentry part hpart
      have harguments : part.arguments =
          (entryLeaves entry.1).flatMap (Leaf.argumentsBelow (names entry.2)) := by
        refine arguments_of_entryExpr ?_ hpart
        intro connective members hgroup
        exact ih connective members (hgroup ▸ List.fst_mem_of_mem_zipIdx hentry)
      rw [harguments, List.flatMap_map]
      rfl
  | disjunction branches ih =>
      intro names parts h
      exact arguments_of_branchExprs ih h

theorem arguments_of_restriction {formula : Formula} {space : String} {restriction : Restriction}
    (h : formula.restriction scope space = .ok restriction) :
    restriction.arguments = formula.leaves.flatMap (Leaf.arguments (rootName space)) := by
  rw [restriction_eq_map_parts] at h
  obtain ⟨parts, hparts, rfl⟩ := map_eq_ok.1 h
  exact bindsLeaves formula _ _ hparts

/-- A compilation binds the leaves of the formula from left to right, each under the number of its
outermost part and the suffixes of its further positions, and no name occurs twice. The text has one
slot for each of these names, in the same order. -/
theorem bindings_eq_leaves {formula : Formula} {space : String} {restriction : Restriction}
    (h : formula.restriction scope space = .ok restriction) :
    restriction.bindings.entries =
        formula.leaves.flatMap (Leaf.arguments fun index => space ++ toString index) ∧
      restriction.bindings.names.Nodup ∧
      (MadeOf isWordChar space → MadeOf isWordChar scope.owner →
        ∃ segments, Segment.ofChars restriction.sql.toList = .ok segments ∧
          segments.flatMap Segment.spelling = restriction.sql.toList ∧
          Segment.char ':' ∉ segments ∧
          segments.filterMap Segment.slot? = restriction.bindings.entries.map Argument.slot) := by
  have hplaced := placed_of_restriction h
  have hentries := hplaced.entries_bindings
  refine ⟨hentries.trans (arguments_of_restriction h), ?_, ?_⟩
  · rw [Bindings.names, hentries]
    exact hplaced.parameters_nodup
  · intro hspace howner
    obtain ⟨segments, hsegments, hslots⟩ :=
      hplaced.scans howner hspace [] [] (stops_nil _) (by rw [Segment.ofChars])
    rw [List.append_nil, List.append_nil] at hsegments
    obtain ⟨hspelling, hcolon⟩ := Segment.spelling_of_ofChars hsegments
    exact ⟨segments, hsegments, hspelling, hcolon, by rw [hslots, hentries]⟩

theorem bindings_eq_leaves_nested :
    let formula := Formula.conjunction [
      .column "a" (.every [⟨.between, .range (.int 1) (.int 2)⟩, ⟨.isIn, .list [.null]⟩]),
      .group .or [
        .disjunction [.conjunction [
          .column "b" (.equals (.bool true)), .column "c" (.every [⟨.gtCol, .column "a"⟩])]],
        .conjunction []],
      .column "d" (.every [⟨.like, .scalar (.text "x%")⟩])]
    let scope : Scope := ⟨"t", ["o"], some "o"⟩
    ∃ restriction, formula.restriction scope "J_1_" = .ok restriction ∧
      restriction.sql = "(o.a BETWEEN :J_1_0_0_start AND :J_1_0_0_end AND o.a IN " ++
        "(:...J_1_0_1)) AND ((o.b = :J_1_1_0_0 AND o.c > o.a) OR ()) AND o.d LIKE :J_1_2" ∧
      restriction.bindings.entries = [("J_1_0_0_start", .one (.int 1)),
        ("J_1_0_0_end", .one (.int 2)), ("J_1_0_1", .many [.null]),
        ("J_1_1_0_0", .one (.bool true)), ("J_1_2", .one (.text "x%"))] ∧
      restriction.bindings.names.Nodup ∧
      ∃ segments, Segment.ofChars restriction.sql.toList = .ok segments ∧
        segments.filterMap Segment.slot? = restriction.bindings.entries.map Argument.slot := by
  intro formula scope
  obtain ⟨restriction, hrestriction, hsql⟩ : ∃ restriction,
      formula.restriction scope "J_1_" = .ok restriction ∧
        restriction.sql = "(o.a BETWEEN :J_1_0_0_start AND :J_1_0_0_end AND o.a IN " ++
          "(:...J_1_0_1)) AND ((o.b = :J_1_1_0_0 AND o.c > o.a) OR ()) AND o.d LIKE :J_1_2" :=
    ⟨_, by cbv, by cbv⟩
  obtain ⟨hentries, hnodup, hslots⟩ := bindings_eq_leaves hrestriction
  obtain ⟨segments, hsegments, -, -, hfound⟩ := hslots (by decide) (by decide)
  exact ⟨restriction, hrestriction, hsql, hentries.trans (by cbv), hnodup, segments, hsegments,
    hfound⟩

end Formula

end FilterSql
