import FilterSql.Assembler
import FilterSql.Proofs.Written
import Mathlib

/-! Groups with a single element. Such a group is compiled as its element, under the same name and
without parentheses, so putting an element of a filter into a group of its own changes nothing,
wherever the element stands and however often it is done. -/

namespace FilterSql

/-! ### Related results -/

/-- The computations end with related results, or with the same fault. -/
inductive EndsAlike {ε α : Type} (R : α → α → Prop) : Except ε α → Except ε α → Prop where
  | ok {value value' : α} (h : R value value') : EndsAlike R (.ok value) (.ok value')
  | error (fault : ε) : EndsAlike R (.error fault) (.error fault)

namespace EndsAlike

variable {α β ε : Type} {R : α → α → Prop} {S : β → β → Prop} {result result' : Except ε α}

theorem refl (hR : ∀ value, R value value) (result : Except ε α) : EndsAlike R result result := by
  cases result with
  | ok value => exact .ok (hR value)
  | error fault => exact .error fault

theorem bind {next next' : α → Except ε β} (h : EndsAlike R result result')
    (hnext : ∀ value value', R value value' → EndsAlike S (next value) (next' value')) :
    EndsAlike S (result >>= next) (result' >>= next') := by
  cases h with
  | ok h => exact hnext _ _ h
  | error fault => exact .error fault

theorem mono {R' : α → α → Prop} (h : EndsAlike R result result')
    (hR : ∀ value value', R value value' → R' value value') : EndsAlike R' result result' := by
  cases h with
  | ok h => exact .ok (hR _ _ h)
  | error fault => exact .error fault

theorem map {f f' : α → β} (h : EndsAlike R result result')
    (hf : ∀ value value', R value value' → S (f value) (f' value')) :
    EndsAlike S (result.map f) (result'.map f') := by
  cases h with
  | ok h => exact .ok (hf _ _ h)
  | error fault => exact .error fault

theorem mapM {f f' : β → Except ε α} {inputs inputs' : List β}
    (h : List.Forall₂ (fun input input' => EndsAlike R (f input) (f' input')) inputs inputs') :
    EndsAlike (List.Forall₂ R) (inputs.mapM f) (inputs'.mapM f') := by
  induction h with
  | nil => exact .ok .nil
  | cons hinput _ ih =>
      rw [List.mapM_cons, List.mapM_cons]
      exact hinput.bind fun _ _ hvalue => ih.bind fun _ _ hvalues => .ok (.cons hvalue hvalues)

theorem bind_eq {next next' : α → Except ε β} (h : EndsAlike R result result')
    (hnext : ∀ value value', R value value' → next value = next' value') :
    result >>= next = result' >>= next' := by
  cases h with
  | ok h => exact hnext _ _ h
  | error fault => rfl

end EndsAlike

/-- Two lists that differ in one member are related if those members are. -/
theorem forall₂_replace {α : Type} {R : α → α → Prop} (hR : ∀ value, R value value)
    {value value' : α} (h : R value value') (before after : List α) :
    List.Forall₂ R (before ++ value :: after) (before ++ value' :: after) := by
  have hrefl : ∀ values : List α, List.Forall₂ R values values :=
    fun values => List.forall₂_same.2 fun value _ => hR value
  exact List.rel_append (hrefl before) (.cons h (hrefl after))

/-! ### Formulas that are lowered alike -/

namespace Formula

/-- The formulas stand for the same expression under every name. -/
def SameExpr (formula other : Formula) : Prop :=
  ∀ (scope : Scope) (name : String), formula.toExpr scope name = other.toExpr scope name

/-- The formulas have the same outermost parts, so they agree at the root too. -/
structure SameParts (formula other : Formula) : Prop where
  connective : formula.connective = other.connective
  length : formula.length = other.length
  parts : ∀ (scope : Scope) (names : Nat → String),
    formula.parts scope names = other.parts scope names

theorem SameExpr.refl (formula : Formula) : formula.SameExpr formula := fun _ _ => rfl

theorem SameParts.sameExpr {formula other : Formula} (h : formula.SameParts other) :
    formula.SameExpr other := by
  intro scope name
  rw [toExpr_eq_map_parts, toExpr_eq_map_parts, h.length, h.parts, h.connective]

theorem SameParts.restriction {formula other : Formula} (h : formula.SameParts other)
    (scope : Scope) (space : String) :
    formula.restriction scope space = other.restriction scope space := by
  rw [restriction_eq_map_parts, restriction_eq_map_parts, h.parts, h.connective]

theorem branchExprs_congr {branches branches' : List Formula}
    (h : List.Forall₂ SameExpr branches branches') (scope : Scope) (names : Nat → String)
    (index : Nat) : branchExprs scope names index branches =
      branchExprs scope names index branches' := by
  induction h generalizing index with
  | nil => rfl
  | cons hbranch _ ih => rw [branchExprs, branchExprs, hbranch, ih]

theorem sameParts_disjunction {branches branches' : List Formula}
    (h : List.Forall₂ SameExpr branches branches') :
    (disjunction branches).SameParts (disjunction branches') where
  connective := rfl
  length := h.length_eq
  parts scope names := branchExprs_congr h scope names 0

/-- The entries differ at most in the members of groups, and there in formulas that stand for the
same expression. -/
inductive SameEntry : Entry → Entry → Prop where
  | refl (entry : Entry) : SameEntry entry entry
  | group (connective : Connective) {members members' : List Formula}
      (h : List.Forall₂ SameExpr members members') :
      SameEntry (.group connective members) (.group connective members')

theorem SameEntry.entryExpr {entry entry' : Entry} (h : SameEntry entry entry') (scope : Scope)
    (name : String) : entryExpr scope name entry = entryExpr scope name entry' := by
  cases h with
  | refl => rfl
  | group connective h =>
      rw [Formula.entryExpr, Formula.entryExpr, branchExprs_congr h, h.length_eq]

theorem sameParts_conjunction {entries entries' : List Entry}
    (h : List.Forall₂ SameEntry entries entries') :
    (conjunction entries).SameParts (conjunction entries') where
  connective := rfl
  length := h.length_eq
  parts scope names := by
    show entryExprs scope names 0 entries = entryExprs scope names 0 entries'
    generalize 0 = index
    induction h generalizing index with
    | nil => rfl
    | cons hentry _ ih => rw [entryExprs, entryExprs, hentry.entryExpr, ih]

variable (scope : Scope) (name : String)

theorem branchExprs_singleton (names : Nat → String) (formula : Formula) :
    branchExprs scope names 0 [formula] = (formula.toExpr scope (names 0)).map ([·]) := by
  rw [branchExprs, branchExprs]
  cases formula.toExpr scope (names 0) <;> rfl

/-- An only part keeps the name of its parent and gets no parentheses. -/
theorem map_ofParts_branchExprs_singleton (connective : Connective) (formula : Formula) :
    (branchExprs scope (partName name 1) 0 [formula]).map (Expr.ofParts connective) =
      formula.toExpr scope name := by
  have hname : partName name 1 0 = name := if_pos rfl
  rw [branchExprs_singleton, map_map, hname]
  cases formula.toExpr scope name <;> rfl

theorem toExpr_disjunction_singleton (formula : Formula) :
    (disjunction [formula]).toExpr scope name = formula.toExpr scope name :=
  map_ofParts_branchExprs_singleton scope name .or formula

theorem entryExprs_singleton_group (names : Nat → String) (connective : Connective)
    (formula : Formula) :
    entryExprs scope names 0 [.group connective [formula]] =
      (formula.toExpr scope (names 0)).map ([·]) := by
  have hentry : entryExpr scope (names 0) (.group connective [formula]) =
      formula.toExpr scope (names 0) :=
    map_ofParts_branchExprs_singleton scope (names 0) connective formula
  rw [entryExprs, entryExprs, hentry]
  cases formula.toExpr scope (names 0) <;> rfl

theorem restriction_disjunction_singleton (space : String) (formula : Formula) :
    (disjunction [formula]).restriction scope space =
      (formula.toExpr scope (rootName space 0)).map fun part => ⟨.or, [part]⟩ := by
  rw [restriction, branchExprs_singleton, map_map]
  rfl

theorem restriction_conjunction_singleton (space : String) (connective : Connective)
    (formula : Formula) :
    (conjunction [.group connective [formula]]).restriction scope space =
      (formula.toExpr scope (rootName space 0)).map fun part => ⟨.and, [part]⟩ := by
  rw [restriction, entryExprs_singleton_group, map_map]
  rfl

theorem toExpr_conjunction_singleton (connective : Connective) (formula : Formula) :
    (conjunction [.group connective [formula]]).toExpr scope name = formula.toExpr scope name := by
  have hname : partName name 1 0 = name := if_pos rfl
  rw [toExpr, List.length_singleton, entryExprs_singleton_group, hname, map_map]
  cases formula.toExpr scope name <;> rfl

end Formula

/-! ### Reading lists -/

theorem mapM_singleton {α β ε : Type} (f : α → Except ε β) (input : α) :
    [input].mapM f = (f input).map ([·]) := by
  rw [List.mapM_cons, List.mapM_nil]
  cases f input <;> rfl

variable (wildcards : Wildcards)

theorem Formula.ofNonempty_list {items : List Filter} (hne : items ≠ []) :
    ofNonempty wildcards (.list items) =
      (items.mapM (ofNonempty wildcards)).map .disjunction := by
  cases items with
  | nil => contradiction
  | cons item items => rw [ofNonempty, ofItems_eq_mapM]

theorem Formula.ofNonempty_object {entries : List (String × Filter)} (hne : entries ≠ []) :
    ofNonempty wildcards (.object entries) =
      (entries.mapM (Entry.ofPair wildcards)).map .conjunction := by
  cases entries with
  | nil => contradiction
  | cons entry entries => rw [ofNonempty, ofEntries_eq_mapM]

theorem Entry.ofPair_group (connective : Connective) {items : List Filter} (hne : items ≠ []) :
    ofPair wildcards (connective.operator.token, .list items) =
      (items.mapM (Formula.ofNonempty wildcards)).map (group connective) := by
  rw [ofPair, EntryKey.ofText_token]
  cases items with
  | nil => contradiction
  | cons item items =>
      show (Formula.ofMembers wildcards connective (.list (item :: items))).map _ = _
      rw [Formula.ofMembers, Formula.ofItems_eq_mapM]

/-! ### Groups of one element -/

namespace Filter

/-- The group has the filter as its only element: `[N]`, `{"$and": [N]}` or `{"$or": [N]}`. -/
inductive GroupsAlone (filter : Filter) : Filter → Prop where
  | list : GroupsAlone filter (.list [filter])
  | connective (connective : Connective) :
      GroupsAlone filter (.object [(connective.operator.token, .list [filter])])

/-- A filter in which one element is missing: an item of a list, or of a list that a connective
groups. -/
inductive Place where
  | item (before after : List Filter)
  | member (entries : List (String × Filter)) (connective : Connective)
      (before after : List Filter) (entries' : List (String × Filter))

def Place.fill : Place → Filter → Filter
  | .item before after, element => .list (before ++ element :: after)
  | .member entries connective before after entries', element =>
    .object (entries ++
      (connective.operator.token, .list (before ++ element :: after)) :: entries')

/-- One element, at any depth, is put into a group of its own. -/
inductive Regroups : Filter → Filter → Prop where
  | here (place : Place) {element group : Filter} (h : element.GroupsAlone group) :
      Regroups (place.fill element) (place.fill group)
  | inside (place : Place) {element element' : Filter} (h : Regroups element element') :
      Regroups (place.fill element) (place.fill element')

theorem Place.isEmpty_fill (place : Place) (element : Filter) :
    (place.fill element).isEmpty = false := by
  cases place <;> simp [fill, isEmpty]

theorem ofNonempty_alone_list (filter : Filter) :
    Formula.ofNonempty wildcards (.list [filter]) =
      (Formula.ofNonempty wildcards filter).map fun formula => .disjunction [formula] := by
  rw [Formula.ofNonempty_list _ (List.cons_ne_nil _ _), mapM_singleton, map_map]
  rfl

theorem ofNonempty_alone_group (connective : Connective) (filter : Filter) :
    Formula.ofNonempty wildcards (.object [(connective.operator.token, .list [filter])]) =
      (Formula.ofNonempty wildcards filter).map fun formula =>
        .conjunction [.group connective [formula]] := by
  rw [Formula.ofNonempty_object _ (List.cons_ne_nil _ _), mapM_singleton,
    Entry.ofPair_group _ _ (List.cons_ne_nil _ _), mapM_singleton, map_map, map_map, map_map]
  rfl

/-- Read as an element, the group stands for what its only element stands for. -/
theorem GroupsAlone.endsAlike {filter group : Filter} (h : filter.GroupsAlone group) :
    EndsAlike Formula.SameExpr (Formula.ofNonempty wildcards filter)
      (Formula.ofNonempty wildcards group) := by
  have hwrap : ∀ wrap : Formula → Formula, (∀ formula : Formula, formula.SameExpr (wrap formula)) →
      EndsAlike Formula.SameExpr (Formula.ofNonempty wildcards filter)
        ((Formula.ofNonempty wildcards filter).map wrap) := by
    intro wrap hsame
    cases Formula.ofNonempty wildcards filter with
    | ok formula => exact .ok (hsame formula)
    | error fault => exact .error fault
  cases h with
  | list =>
      rw [ofNonempty_alone_list]
      exact hwrap _ fun formula scope name =>
        (Formula.toExpr_disjunction_singleton scope name formula).symm
  | connective connective =>
      rw [ofNonempty_alone_group]
      exact hwrap _ fun formula scope name =>
        (Formula.toExpr_conjunction_singleton scope name connective formula).symm

/-- What stands for the same expression can be exchanged at any place. -/
theorem Place.endsAlike_fill (place : Place) {element element' : Filter}
    (h : EndsAlike Formula.SameExpr (Formula.ofNonempty wildcards element)
      (Formula.ofNonempty wildcards element')) :
    EndsAlike Formula.SameParts (Formula.ofNonempty wildcards (place.fill element))
      (Formula.ofNonempty wildcards (place.fill element')) := by
  have hitems : ∀ before after : List Filter, EndsAlike (List.Forall₂ Formula.SameExpr)
      ((before ++ element :: after).mapM (Formula.ofNonempty wildcards))
      ((before ++ element' :: after).mapM (Formula.ofNonempty wildcards)) := by
    intro before after
    apply EndsAlike.mapM
    refine forall₂_replace (fun filter => ?_) ?_ before after
    · exact .refl Formula.SameExpr.refl _
    · exact h
  cases place with
  | item before after =>
      rw [fill, fill, Formula.ofNonempty_list _ (by simp), Formula.ofNonempty_list _ (by simp)]
      exact (hitems before after).map fun _ _ => Formula.sameParts_disjunction
  | member entries connective before after entries' =>
      have hentry : EndsAlike Formula.SameEntry
          (Entry.ofPair wildcards (connective.operator.token, .list (before ++ element :: after)))
          (Entry.ofPair wildcards
            (connective.operator.token, .list (before ++ element' :: after))) := by
        rw [Entry.ofPair_group _ _ (by simp), Entry.ofPair_group _ _ (by simp)]
        exact (hitems before after).map fun _ _ => .group connective
      rw [fill, fill, Formula.ofNonempty_object _ (by simp),
        Formula.ofNonempty_object _ (by simp)]
      refine EndsAlike.map (EndsAlike.mapM ?_) fun _ _ => Formula.sameParts_conjunction
      refine forall₂_replace (fun entry => ?_) ?_ entries entries'
      · exact .refl Formula.SameEntry.refl _
      · exact hentry

theorem Regroups.endsAlike {filter filter' : Filter} (h : filter.Regroups filter') :
    EndsAlike Formula.SameParts (Formula.ofNonempty wildcards filter)
      (Formula.ofNonempty wildcards filter') := by
  induction h with
  | here place h => exact place.endsAlike_fill wildcards (h.endsAlike wildcards)
  | inside place _ ih =>
      exact place.endsAlike_fill wildcards (ih.mono fun _ _ h => h.sameExpr)

theorem Regroups.restriction {filter filter' : Filter} (h : filter.Regroups filter')
    (scope : Scope) (space : String) :
    filter.restriction wildcards scope space = filter'.restriction wildcards scope space := by
  have hempty : filter.isEmpty = false ∧ filter'.isEmpty = false := by
    cases h with
    | here place => exact ⟨place.isEmpty_fill _, place.isEmpty_fill _⟩
    | inside place => exact ⟨place.isEmpty_fill _, place.isEmpty_fill _⟩
  rw [Filter.restriction, Filter.restriction, Formula.ofFilter, Formula.ofFilter, hempty.1,
    hempty.2]
  exact (h.endsAlike wildcards).bind_eq fun _ _ hsame => hsame.restriction scope space

end Filter

/-! ### Groups at the root -/

/-- What becomes of a restriction in a statement. -/
def Restriction.clause (restriction : Restriction) : String × Bindings :=
  (restriction.sql, restriction.bindings)

theorem Restriction.clause_singleton (connective : Connective) (part : Expr) :
    clause ⟨connective, [part]⟩ = (part.sql, Bindings.ofList part.arguments) := by
  simp [clause, sql, bindings, Expr.partsSql, Expr.partsArguments]

namespace Filter

variable (scope : Scope) (space : String)

/-- Of the kind of the group nothing is left. -/
theorem GroupsAlone.map_clause {filter group : Filter} (h : filter.GroupsAlone group) :
    (group.restriction wildcards scope space).map Restriction.clause =
      (Formula.ofNonempty wildcards filter >>= Formula.toExpr scope (rootName space 0)).map
        fun part => (part.sql, Bindings.ofList part.arguments) := by
  have hempty : group.isEmpty = false := by cases h <;> rfl
  rw [Filter.restriction, Formula.ofFilter, hempty]
  cases h with
  | list =>
      rw [ofNonempty_alone_list]
      cases Formula.ofNonempty wildcards filter with
      | error fault => rfl
      | ok formula =>
          show ((Formula.disjunction [formula]).restriction scope space).map _ = _
          rw [Formula.restriction_disjunction_singleton, map_map]
          simp only [Function.comp_def, Restriction.clause_singleton]
          rfl
  | connective connective =>
      rw [ofNonempty_alone_group]
      cases Formula.ofNonempty wildcards filter with
      | error fault => rfl
      | ok formula =>
          show ((Formula.conjunction
            [.group connective [formula]]).restriction scope space).map _ = _
          rw [Formula.restriction_conjunction_singleton, map_map]
          simp only [Function.comp_def, Restriction.clause_singleton]
          rfl

/-- Elements of a filter can be put into groups of their own, once or repeatedly and wherever they
stand: it is compiled to the same restriction, or fails with the same fault. At the root, where the
group has no element beside it, the three groups have the same text and the same bindings. -/
theorem restriction_ignores_lone_groups :
    (∀ filter filter', Relation.ReflTransGen Regroups filter filter' →
      filter'.restriction wildcards scope space = filter.restriction wildcards scope space) ∧
    ∀ filter group group', GroupsAlone filter group → GroupsAlone filter group' →
      (group'.restriction wildcards scope space).map Restriction.clause =
        (group.restriction wildcards scope space).map Restriction.clause := by
  constructor
  · intro filter filter' h
    induction h with
    | refl => rfl
    | tail _ hstep ih => rw [← hstep.restriction, ih]
  · intro filter group group' hgroup hgroup'
    rw [hgroup.map_clause, hgroup'.map_clause]

/-- An item is put into a list and that into a group, and a member of a group into another one. -/
theorem restriction_ignores_lone_groups_repeated :
    let a := Filter.object [("a", .scalar (.int 1))]
    let b := Filter.object [("b", .object [("$in", .list [.scalar .null])])]
    let c := Filter.object [("c", .scalar (.int 2))]
    let filter := Filter.list [a, .object [("$and", .list [b, c])]]
    let filter' := Filter.list [.object [("$or", .list [.list [a]])],
      .object [("$and", .list [.object [("$and", .list [b])], c])]]
    let sql := "t.a = :0 OR (t.b IN (:...1_0) AND t.c = :1_1)"
    ∃ restriction, filter.restriction .anywhere (Scope.ofMain "t") "" = .ok restriction ∧
      filter'.restriction .anywhere (Scope.ofMain "t") "" = .ok restriction ∧
      restriction.sql = sql ∧
      ((Filter.object [("$and", .list [filter])]).restriction .anywhere (Scope.ofMain "t") "").map
          Restriction.clause =
        ((Filter.list [filter]).restriction .anywhere (Scope.ofMain "t") "").map
          Restriction.clause := by
  intro a b c filter filter' sql
  obtain ⟨hregroups, hroot⟩ := restriction_ignores_lone_groups .anywhere (Scope.ofMain "t") ""
  have hlist : Regroups filter (.list [.list [a], .object [("$and", .list [b, c])]]) :=
    .here (.item [] [.object [("$and", .list [b, c])]]) .list
  have hgroup : Regroups (.list [.list [a], .object [("$and", .list [b, c])]])
      (.list [.object [("$or", .list [.list [a]])], .object [("$and", .list [b, c])]]) :=
    .here (.item [] [.object [("$and", .list [b, c])]]) (.connective .or)
  have hmember : Regroups
      (.list [.object [("$or", .list [.list [a]])], .object [("$and", .list [b, c])]]) filter' :=
    .inside (.item [.object [("$or", .list [.list [a]])]] [])
      (.here (.member [] .and [] [c] []) (.connective .and))
  obtain ⟨restriction, hrestriction, hsql⟩ : ∃ restriction,
      filter.restriction .anywhere (Scope.ofMain "t") "" = .ok restriction ∧
        restriction.sql = sql := ⟨_, by cbv, by cbv⟩
  have hsteps : Relation.ReflTransGen Regroups filter filter' :=
    ((Relation.ReflTransGen.single hlist).tail hgroup).tail hmember
  have hsame := hregroups filter filter' hsteps
  exact ⟨restriction, hrestriction, hsame.trans hrestriction, hsql,
    hroot filter _ _ .list (.connective .and)⟩

end Filter

end FilterSql
