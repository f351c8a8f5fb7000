import FilterSql.Proofs.Slots
import FilterSql.Proofs.Suitability

/-! Name spaces. Compiling below a name space is compiling without one and writing the space in
front of every parameter afterwards, in the bindings and in the slots of the text. The rest of the
text does not depend on the space, and neither do the faults. -/

namespace FilterSql

/-! ### Expressions below a name space -/

variable (space : String)

def Predicate.prefixed : Predicate → Predicate
  | .compare column operator parameter value => .compare column operator (space ++ parameter) value
  | .member column operator parameter values => .member column operator (space ++ parameter) values
  | .range column operator parameter low high =>
    .range column operator (space ++ parameter) low high
  | .columns column operator other => .columns column operator other

namespace Expr

mutual

/-- Writes the space in front of every parameter. -/
def prefixed : Expr → Expr
  | .leaf predicate => .leaf (predicate.prefixed space)
  | .group connective parts => .group connective (partsPrefixed parts)
termination_by structural expression => expression

def partsPrefixed : List Expr → List Expr
  | [] => []
  | part :: parts => prefixed part :: partsPrefixed parts
termination_by structural parts => parts

end

theorem partsPrefixed_eq_map (parts : List Expr) :
    partsPrefixed space parts = parts.map (prefixed space) := by
  induction parts with
  | nil => rfl
  | cons part parts ih => rw [partsPrefixed, ih, List.map_cons]

theorem prefixed_ofParts (connective : Connective) (parts : List Expr) :
    (ofParts connective parts).prefixed space =
      ofParts connective (parts.map (prefixed space)) := by
  match parts with
  | [] => rfl
  | [part] => rfl
  | part :: next :: rest =>
      show prefixed space (.group connective (part :: next :: rest)) = _
      rw [prefixed, partsPrefixed_eq_map]
      rfl

end Expr

def Restriction.prefixed (restriction : Restriction) : Restriction :=
  { restriction with parts := restriction.parts.map (Expr.prefixed space) }

/-! ### Names -/

theorem partName_append (name : String) (siblings index : Nat) :
    partName (space ++ name) siblings index = space ++ partName name siblings index := by
  unfold partName
  split
  · rfl
  · simp only [String.append_assoc]

theorem Predicate.lowParameter_append (parameter : String) :
    lowParameter (space ++ parameter) = space ++ lowParameter parameter :=
  String.append_assoc

theorem Predicate.highParameter_append (parameter : String) :
    highParameter (space ++ parameter) = space ++ highParameter parameter :=
  String.append_assoc

theorem rootName_eq_append (index : Nat) : rootName space index = space ++ rootName "" index := by
  simp [rootName]

/-! ### Lowering -/

variable {scope : Scope}

theorem Predicate.ofCheck_append (column : ColumnRef) (name : String) (check : Check) :
    ofCheck scope column (space ++ name) check =
      (ofCheck scope column name check).map (prefixed space) := by
  obtain ⟨operator, operand⟩ := check
  cases operand with
  | column other =>
      cases hcategory : operator.category <;> simp only [ofCheck, hcategory]
      case columnCompare => cases scope.column other <;> rfl
      all_goals rfl
  | _ => cases hcategory : operator.category <;> simp only [ofCheck, hcategory] <;> rfl

theorem Expr.ofTest_append (column : ColumnRef) (name : String) (test : Test) :
    ofTest scope column (space ++ name) test =
      (ofTest scope column name test).map (prefixed space) := by
  have hchecks : (test.checks.zipIdx.mapM fun check =>
      (Predicate.ofCheck scope column
        (partName (space ++ name) test.checks.length check.2) check.1).map leaf) =
      (test.checks.zipIdx.mapM fun check =>
        (Predicate.ofCheck scope column
          (partName name test.checks.length check.2) check.1).map leaf).map
        (List.map (prefixed space)) := by
    refine mapM_eq_map fun check _ => ?_
    rw [partName_append, Predicate.ofCheck_append, map_map, map_map]
    rfl
  rw [ofTest_eq_map_mapM, ofTest_eq_map_mapM, hchecks, map_map, map_map]
  simp only [Function.comp_def, prefixed_ofParts]

namespace Formula

/-- A space in front of the names of the outermost parts is one in front of all parameters. -/
def CarriesSpace (scope : Scope) (formula : Formula) : Prop :=
  ∀ names : Nat → String, formula.parts scope (fun index => space ++ names index) =
    (formula.parts scope names).map (List.map (Expr.prefixed space))

variable {space}

theorem CarriesSpace.toExpr {formula : Formula} (h : formula.CarriesSpace space scope)
    (name : String) :
    formula.toExpr scope (space ++ name) =
      (formula.toExpr scope name).map (Expr.prefixed space) := by
  have hnames : partName (space ++ name) formula.length =
      fun index => space ++ partName name formula.length index :=
    funext fun index => partName_append space name _ index
  rw [toExpr_eq_map_parts, toExpr_eq_map_parts, hnames, h, map_map, map_map]
  simp only [Function.comp_def, Expr.prefixed_ofParts]

theorem CarriesSpace.branchExprs {members : List Formula}
    (hmembers : ∀ member ∈ members, member.CarriesSpace space scope) (names : Nat → String) :
    branchExprs scope (fun index => space ++ names index) 0 members =
      (branchExprs scope names 0 members).map (List.map (Expr.prefixed space)) := by
  rw [branchExprs_eq_mapM, branchExprs_eq_mapM]
  refine mapM_eq_map fun member hmember => ?_
  exact (hmembers member.1 (List.fst_mem_of_mem_zipIdx hmember)).toExpr _

theorem CarriesSpace.entryExpr {entry : Entry} (hmembers : ∀ connective members,
      entry = .group connective members → ∀ member ∈ members, member.CarriesSpace space scope)
    (name : String) :
    entryExpr scope (space ++ name) entry =
      (entryExpr scope name entry).map (Expr.prefixed space) := by
  cases entry with
  | column identifier test =>
      rw [Formula.entryExpr, Formula.entryExpr]
      cases scope.column identifier with
      | error fault => rfl
      | ok column => exact Expr.ofTest_append space column name test
  | group connective members =>
      have hnames : partName (space ++ name) members.length =
          fun index => space ++ partName name members.length index :=
        funext fun index => partName_append space name _ index
      rw [Formula.entryExpr, Formula.entryExpr, hnames,
        branchExprs (hmembers connective members rfl), map_map, map_map]
      simp only [Function.comp_def, Expr.prefixed_ofParts]

theorem carriesSpace (formula : Formula) : formula.CarriesSpace space scope := by
  induction formula using Formula.induction with
  | conjunction entries ih =>
      intro names
      rw [Formula.parts, Formula.parts, entryExprs_eq_mapM, entryExprs_eq_mapM]
      refine mapM_eq_map fun entry hentry => CarriesSpace.entryExpr ?_ _
      intro connective members hgroup
      exact ih connective members (hgroup ▸ List.fst_mem_of_mem_zipIdx hentry)
  | disjunction branches ih => exact fun names => CarriesSpace.branchExprs ih names

theorem restriction_eq_map_prefixed (formula : Formula) :
    formula.restriction scope space =
      (formula.restriction scope "").map (Restriction.prefixed space) := by
  rw [restriction_eq_map_parts, restriction_eq_map_parts, funext (rootName_eq_append space),
    carriesSpace, map_map, map_map]
  rfl

end Formula

/-! ### Bindings -/

/-- The argument of the parameter with the space in front of its name. -/
def Argument.prefixed (argument : String × Argument) : String × Argument :=
  (space ++ argument.1, argument.2)

theorem Predicate.arguments_prefixed (predicate : Predicate) :
    (predicate.prefixed space).arguments = predicate.arguments.map (Argument.prefixed space) := by
  cases predicate <;>
    simp [prefixed, arguments, Argument.prefixed, lowParameter_append, highParameter_append]

theorem Expr.Placed.arguments_prefixed {name : String} {expr : Expr} (h : expr.Placed scope name) :
    (expr.prefixed space).arguments = expr.arguments.map (Argument.prefixed space) := by
  induction h with
  | leaf h => exact Predicate.arguments_prefixed space _
  | @ofParts name connective parts h ih =>
      rw [prefixed_ofParts, arguments_ofParts, arguments_ofParts, List.flatMap_map,
        List.map_flatMap]
      apply List.flatMap_congr
      intro part hpart
      obtain ⟨index, hindex⟩ := exists_mem_zipIdx hpart
      exact ih _ hindex

theorem Restriction.Placed.arguments_prefixed {restriction : Restriction}
    (h : restriction.Placed scope "") :
    (restriction.prefixed space).arguments =
      restriction.arguments.map (Argument.prefixed space) := by
  rw [prefixed, arguments, arguments, List.flatMap_map, List.map_flatMap]
  apply List.flatMap_congr
  intro part hpart
  obtain ⟨index, hindex⟩ := exists_mem_zipIdx hpart
  exact (h _ hindex).arguments_prefixed space

/-! ### Text -/

/-- Writes the space in front of the name if the segment is a slot. -/
def Segment.prefixed : Segment → Segment
  | .char c => .char c
  | .slot name spread => .slot (space ++ name) spread

/-- The second text is the first with the space in front of the names in its slots. -/
def Prefixes (text text' : String) : Prop :=
  ∃ segments, SplitsAs text segments ∧ SplitsAs text' (segments.map (Segment.prefixed space))

variable {space}

namespace Prefixes

variable {text text' back back' plain : String}

theorem of_plain (h : MadeOf isPlainChar text) : Prefixes space text text := by
  refine ⟨_, splitsAs_plain h, ?_⟩
  rw [List.map_map]
  exact splitsAs_plain h

theorem plain_append (hplain : MadeOf isPlainChar plain) (h : Prefixes space text text') :
    Prefixes space (plain ++ text) (plain ++ text') := by
  obtain ⟨segments, hsegments, hsegments'⟩ := h
  refine ⟨_, hsegments.plain_append hplain, ?_⟩
  rw [List.map_append, List.map_map]
  exact hsegments'.plain_append hplain

theorem append (h : Prefixes space text text') (hback : Prefixes space back back')
    (hstops : Stops isWordChar back.toList) (hstops' : Stops isWordChar back'.toList) :
    Prefixes space (text ++ back) (text' ++ back') := by
  obtain ⟨segments, hsegments, hsegments'⟩ := h
  obtain ⟨rest, hrest, hrest'⟩ := hback
  refine ⟨segments ++ rest, hsegments.append hrest hstops, ?_⟩
  rw [List.map_append]
  exact hsegments'.append hrest' hstops'

theorem parenthesized (h : Prefixes space text text') :
    Prefixes space ("(" ++ text ++ ")") ("(" ++ text' ++ ")") := by
  have hopen : MadeOf isPlainChar "(" := by decide
  have hclose : Prefixes space ")" ")" := of_plain (by decide)
  rw [String.append_assoc, String.append_assoc]
  exact (h.append hclose (by decide) (by decide)).plain_append hopen

end Prefixes

variable {name : String}

theorem prefixes_parameter (hspace : MadeOf isWordChar space) (hname : IsWord name) :
    Prefixes space (":" ++ name) (":" ++ (space ++ name)) :=
  ⟨_, splitsAs_parameter hname, splitsAs_parameter (hname.prepend hspace)⟩

theorem prefixes_spread (hspace : MadeOf isWordChar space) (hname : IsWord name) :
    Prefixes space (Term.spread name).sql (Term.spread (space ++ name)).sql := by
  rw [Term.sql_spread, Term.sql_spread]
  exact .parenthesized ⟨_, splitsAs_spread hname, splitsAs_spread (hname.prepend hspace)⟩

theorem prefixes_between (hspace : MadeOf isWordChar space) {low high : String}
    (hlow : IsWord low) (hhigh : IsWord high) :
    Prefixes space (Term.between low high).sql
      (Term.between (space ++ low) (space ++ high)).sql := by
  have hback : Prefixes space (" AND " ++ (":" ++ high)) (" AND " ++ (":" ++ (space ++ high))) :=
    (prefixes_parameter hspace hhigh).plain_append (by decide)
  rw [Term.sql_between, Term.sql_between]
  exact (prefixes_parameter hspace hlow).append hback (stops_toList_append (by decide) _)
    (stops_toList_append (by decide) _)

theorem Predicate.Placed.prefixes {predicate : Predicate} (h : predicate.Placed scope name)
    (howner : MadeOf isWordChar scope.owner) (hspace : MadeOf isWordChar space)
    (hname : IsWord name) : Prefixes space predicate.sql (predicate.prefixed space).sql := by
  have hfront : MadeOf isPlainChar
      (predicate.column.sql ++ " " ++ predicate.operator.sql ++ " ") :=
    (((h.gives_column.isPath howner).isPlain.append (by decide)).append
      predicate.operator.isPlain_sql).append (by decide)
  rw [sql_eq_term, sql_eq_term]
  cases h with
  | compare => exact (prefixes_parameter hspace hname).plain_append hfront
  | member => exact (prefixes_spread hspace hname).plain_append hfront
  | range =>
      have hlow : IsWord (lowParameter name) := hname.append (by decide)
      have hhigh : IsWord (highParameter name) := hname.append (by decide)
      have hbounds := prefixes_between hspace hlow hhigh
      rw [← lowParameter_append, ← highParameter_append] at hbounds
      exact hbounds.plain_append hfront
  | columns _ _ hother =>
      exact (Prefixes.of_plain (hother.isPath howner).isPlain).plain_append hfront

theorem Expr.prefixes_intercalate (connective : Connective) {parts : List Expr}
    (hparts : ∀ part ∈ parts, Prefixes space part.sql (part.prefixed space).sql) :
    Prefixes space (connective.separator.intercalate (parts.map sql))
      (connective.separator.intercalate ((parts.map (prefixed space)).map sql)) := by
  induction parts with
  | nil =>
      have hempty : MadeOf isPlainChar "" := by decide
      exact .of_plain hempty
  | cons part parts ih =>
      rw [List.forall_mem_cons] at hparts
      cases parts with
      | nil => simpa using hparts.1
      | cons next parts =>
          simp only [List.map_cons, String.intercalate_cons_cons] at ih ⊢
          rw [String.append_assoc, String.append_assoc]
          apply hparts.1.append _ (connective.stops_separator _) (connective.stops_separator _)
          exact (ih hparts.2).plain_append connective.isPlain_separator

theorem Expr.Placed.prefixes {expr : Expr} (h : expr.Placed scope name)
    (howner : MadeOf isWordChar scope.owner) (hspace : MadeOf isWordChar space)
    (hname : IsWord name) : Prefixes space expr.sql (expr.prefixed space).sql := by
  refine h.word_induction hname (fun h hname => h.prefixes howner hspace hname) ?_
  intro connective parts hparts
  rw [prefixed_ofParts]
  match parts with
  | [] =>
      have hgroup : MadeOf isPlainChar "()" := by decide
      exact .of_plain hgroup
  | [part] => exact hparts part List.mem_cons_self
  | part :: next :: rest =>
      show Prefixes space (Expr.group connective (part :: next :: rest)).sql
        (Expr.group connective ((part :: next :: rest).map (prefixed space))).sql
      rw [sql, sql, partsSql_eq_map, partsSql_eq_map]
      exact (prefixes_intercalate connective hparts).parenthesized

theorem Restriction.Placed.prefixes {restriction : Restriction} (h : restriction.Placed scope "")
    (howner : MadeOf isWordChar scope.owner) (hspace : MadeOf isWordChar space) :
    Prefixes space restriction.sql (restriction.prefixed space).sql := by
  rw [sql, sql, Expr.partsSql_eq_map, Expr.partsSql_eq_map]
  apply Expr.prefixes_intercalate
  intro part hpart
  obtain ⟨name, hname, hplaced⟩ := h.exists_word (by decide) hpart
  exact hplaced.prefixes howner hspace hname

/-- Below a name space a formula is compiled as without one, and fails as without one. What comes
out differs in the names of the parameters only, which start with the space: the bindings have the
same values in the same order, and the text has the same characters outside of its slots. -/
theorem Formula.restriction_carries_space (howner : MadeOf isWordChar scope.owner)
    (hspace : MadeOf isWordChar space) (formula : Formula) :
    (∀ fault, formula.restriction scope space = .error fault ↔
      formula.restriction scope "" = .error fault) ∧
    ∀ restriction restriction', formula.restriction scope "" = .ok restriction →
      formula.restriction scope space = .ok restriction' →
      restriction'.bindings.entries =
        restriction.bindings.entries.map (fun entry => (space ++ entry.1, entry.2)) ∧
      ∃ segments, Segment.ofChars restriction.sql.toList = .ok segments ∧
        Segment.ofChars restriction'.sql.toList = .ok (segments.map (Segment.prefixed space)) ∧
        restriction.sql.toList = segments.flatMap Segment.spelling ∧
        restriction'.sql.toList =
          (segments.map (Segment.prefixed space)).flatMap Segment.spelling := by
  constructor
  · intro fault
    rw [formula.restriction_eq_map_prefixed, map_eq_error]
  · intro restriction restriction' h h'
    have hplaced := placed_of_restriction h
    have hplaced' := placed_of_restriction h'
    rw [formula.restriction_eq_map_prefixed, h] at h'
    obtain rfl := Except.ok.inj h'
    refine ⟨?_, ?_⟩
    · rw [hplaced.entries_bindings, hplaced'.entries_bindings, hplaced.arguments_prefixed]
      rfl
    · obtain ⟨segments, hsplits, hsplits'⟩ := hplaced.prefixes howner hspace
      exact ⟨segments, hsplits.ofChars, hsplits'.ofChars,
        (Segment.spelling_of_ofChars hsplits.ofChars).1.symm,
        (Segment.spelling_of_ofChars hsplits'.ofChars).1.symm⟩

/-- A column keeps its name, even if it is called like a parameter. -/
theorem Formula.restriction_carries_space_joined :
    let formula := Formula.conjunction [
      .column "a" (.every [⟨.between, .range (.int 1) (.int 2)⟩, ⟨.isIn, .list [.null]⟩]),
      .group .or [.conjunction [.column "b" (.every [⟨.col, .column "t.1_1"⟩])],
        .conjunction [.column "c" (.equals (.bool true))]]]
    let scope : Scope := ⟨"t", ["o"], some "o"⟩
    ∃ restriction restriction', formula.restriction scope "" = .ok restriction ∧
      formula.restriction scope "J_1_" = .ok restriction' ∧
      restriction.sql = "(o.a BETWEEN :0_0_start AND :0_0_end AND o.a IN (:...0_1)) AND " ++
        "(o.b = t.1_1 OR o.c = :1_1)" ∧
      restriction'.sql = "(o.a BETWEEN :J_1_0_0_start AND :J_1_0_0_end AND " ++
        "o.a IN (:...J_1_0_1)) AND (o.b = t.1_1 OR o.c = :J_1_1_1)" ∧
      restriction'.bindings.entries =
        restriction.bindings.entries.map (fun entry => ("J_1_" ++ entry.1, entry.2)) ∧
      ∃ segments, Segment.ofChars restriction.sql.toList = .ok segments ∧
        Segment.ofChars restriction'.sql.toList =
          .ok (segments.map (Segment.prefixed "J_1_")) := by
  intro formula scope
  obtain ⟨restriction, restriction', h, h', hsql, hsql'⟩ : ∃ restriction restriction',
      formula.restriction scope "" = .ok restriction ∧
        formula.restriction scope "J_1_" = .ok restriction' ∧
        restriction.sql = "(o.a BETWEEN :0_0_start AND :0_0_end AND o.a IN (:...0_1)) AND " ++
          "(o.b = t.1_1 OR o.c = :1_1)" ∧
        restriction'.sql = "(o.a BETWEEN :J_1_0_0_start AND :J_1_0_0_end AND " ++
          "o.a IN (:...J_1_0_1)) AND (o.b = t.1_1 OR o.c = :J_1_1_1)" :=
    ⟨_, _, by cbv, by cbv, by cbv, by cbv⟩
  obtain ⟨-, hrestrictions⟩ :=
    restriction_carries_space (by decide : MadeOf isWordChar scope.owner)
      (by decide : MadeOf isWordChar "J_1_") formula
  obtain ⟨hentries, segments, hsegments, hsegments', -, -⟩ :=
    hrestrictions restriction restriction' h h'
  exact ⟨restriction, restriction', h, h', hsql, hsql', hentries, segments, hsegments, hsegments'⟩

end FilterSql
