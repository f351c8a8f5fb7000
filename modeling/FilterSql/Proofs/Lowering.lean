import FilterSql.Proofs.Checks
import FilterSql.Proofs.Evaluation
import FilterSql.Proofs.Plain
import Mathlib

/-! What has been read can be lowered. A filter that restricts something becomes a condition whose
groups all have parts, so nothing in its text is an empty pair of parentheses, and a statement has
a condition exactly where its request has a filter with content. -/

namespace FilterSql

/-! ### Parts -/

/-- The expression is the other one, or stands somewhere in it. -/
inductive Expr.Within : Expr → Expr → Prop
  | self (expr : Expr) : Within expr expr
  | part {inner part : Expr} {connective : Connective} {parts : List Expr} (hpart : part ∈ parts)
      (h : Within inner part) : Within inner (.group connective parts)

theorem Expr.Within.isFull {inner expr : Expr} (h : inner.Within expr) (hexpr : expr.IsFull) :
    inner.IsFull := by
  induction h with
  | self => exact hexpr
  | part hpart h ih =>
      rw [IsFull, areFull_iff] at hexpr
      exact ih (hexpr.2 _ hpart)

/-- A column stands under its owner, so there is a dot in its text and in that of a comparison. -/
theorem ColumnRef.dot_mem_sql (column : ColumnRef) : '.' ∈ column.sql.toList := by
  simp [sql]

theorem Predicate.dot_mem_sql (predicate : Predicate) : '.' ∈ predicate.sql.toList := by
  have hcolumn := predicate.column.dot_mem_sql
  rw [sql_eq_term]
  simp [hcolumn]

theorem ne_empty_of_mem {text : String} {c : Char} (hc : c ∈ text.toList) : text ≠ "" := by
  rintro rfl
  simp at hc

theorem mem_toList_intercalate (separator : String) {text : String} (texts : List String)
    {c : Char} (hc : c ∈ text.toList) :
    c ∈ (separator.intercalate (text :: texts)).toList := by
  cases texts with
  | nil => simpa using hc
  | cons next texts =>
      rw [String.intercalate_cons_cons]
      simp [hc]

theorem Expr.IsFull.dot_mem_sql : ∀ {expr : Expr}, expr.IsFull → '.' ∈ expr.sql.toList
  | .leaf predicate, _ => predicate.dot_mem_sql
  | .group connective [], h => by simp [IsFull] at h
  | .group connective (part :: parts), h => by
      rw [IsFull, areFull_iff] at h
      have hpart := IsFull.dot_mem_sql (h.2 part List.mem_cons_self)
      have hinner := mem_toList_intercalate connective.separator (partsSql parts) hpart
      rw [sql, partsSql, String.toList_append, String.toList_append]
      exact List.mem_append_left _ (List.mem_append_right _ hinner)

namespace Restriction

/-- Every part of the restriction is full. -/
def IsFull (restriction : Restriction) : Prop := ∀ part ∈ restriction.parts, part.IsFull

theorem IsFull.dot_mem_sql {restriction : Restriction} (h : restriction.IsFull)
    (hne : restriction.isEmpty = false) : '.' ∈ restriction.sql.toList := by
  obtain ⟨connective, parts⟩ := restriction
  cases parts with
  | nil => simp [isEmpty] at hne
  | cons part parts => exact mem_toList_intercalate _ _ (h part List.mem_cons_self).dot_mem_sql

theorem IsFull.sql_eq_empty_iff {restriction : Restriction} (h : restriction.IsFull) :
    restriction.sql = "" ↔ restriction.isEmpty = true := by
  constructor
  · intro hsql
    by_contra hne
    exact ne_empty_of_mem (h.dot_mem_sql (by simpa using hne)) hsql
  · intro hempty
    have hparts : restriction.parts = [] := by simpa [isEmpty] using hempty
    rw [sql, hparts]
    rfl

end Restriction

variable {wildcards : Wildcards} {scope : Scope} {space : String}

/-- The restriction of a filter is full, and has parts exactly if the filter has content. -/
theorem Formula.isFull_of_restriction {filter : Filter} {formula : Formula}
    {restriction : Restriction} (hread : ofFilter wildcards filter = .ok formula)
    (h : formula.restriction scope space = .ok restriction) :
    restriction.IsFull ∧ restriction.isEmpty = filter.isEmpty := by
  rw [restriction_eq_map_parts] at h
  obtain ⟨parts, hparts, rfl⟩ := map_eq_ok.1 h
  unfold ofFilter at hread
  split at hread
  · next hempty =>
      obtain rfl := Except.ok.inj hread
      obtain rfl := Except.ok.inj hparts
      exact ⟨by simp [Restriction.IsFull], hempty.symm⟩
  · next hne =>
      -- any truth will do: only the parts matter here
      obtain ⟨-, hparts, hfull⟩ := filter.kept (fun _ => true) formula _ parts hread hparts
      refine ⟨hfull, ?_⟩
      rw [Bool.not_eq_true] at hne
      rw [hne]
      simpa [Restriction.isEmpty] using hparts

/-! ### Parentheses -/

/-- The characters are not an opening and a closing parenthesis. -/
def Apart (c c' : Char) : Prop := ¬ (c = '(' ∧ c' = ')')

/-- The text, once it is put into parentheses, has no empty pair of them. -/
def IsFilled (text : String) : Prop := List.IsChain Apart ('(' :: (text.toList ++ [')']))

def isNoParenthesis (c : Char) : Bool := c != '(' && c != ')'

theorem isFilled_of_madeOf {text : String} (h : MadeOf isNoParenthesis text) (hne : text ≠ "") :
    IsFilled text := by
  have hchars : ∀ c ∈ text.toList, c ≠ '(' ∧ c ≠ ')' := by
    intro c hc
    simpa [isNoParenthesis] using h c hc
  have hclosed : List.IsChain Apart (text.toList ++ [')']) := by
    apply List.Pairwise.isChain
    rw [List.pairwise_append]
    refine ⟨?_, List.pairwise_singleton _ _, ?_⟩
    · exact List.pairwise_of_forall_mem_list fun c hc _ _ happart => (hchars c hc).1 happart.1
    · exact fun c hc _ _ happart => (hchars c hc).1 happart.1
  refine List.isChain_cons.2 ⟨?_, hclosed⟩
  obtain ⟨c, cs, hcs⟩ := List.exists_cons_of_ne_nil (mt String.toList_eq_nil_iff.1 hne)
  have hc := (hchars c (by simp [hcs])).2
  rw [hcs]
  intro c' hc' happart
  obtain rfl : c = c' := by simpa using hc'
  exact hc happart.2

namespace IsFilled

variable {text text' : String}

theorem append (h : IsFilled text) (h' : IsFilled text') : IsFilled (text ++ text') := by
  have htext : List.IsChain Apart (('(' :: text.toList) ++ [')']) := h
  obtain ⟨hopened, -, hlast⟩ := List.isChain_append.1 htext
  have hclosed := (List.isChain_cons.1 h').2
  have happend : List.IsChain Apart (('(' :: text.toList) ++ (text'.toList ++ [')'])) := by
    -- at the joint it is enough that the first text does not end in an opening parenthesis
    refine List.isChain_append.2 ⟨hopened, hclosed, ?_⟩
    intro c hc c' _ happart
    exact hlast c hc ')' rfl ⟨happart.1, rfl⟩
  simpa [IsFilled] using happend

theorem extend (h : IsFilled text) (h' : MadeOf isNoParenthesis text') :
    IsFilled (text ++ text') := by
  by_cases hne : text' = ""
  · rwa [hne, String.append_empty]
  · exact h.append (isFilled_of_madeOf h' hne)

theorem parenthesized (h : IsFilled text) : IsFilled ("(" ++ text ++ ")") := by
  have hclose : List.IsChain Apart (('(' :: text.toList) ++ [')', ')']) := by
    rw [List.isChain_append_cons_cons]
    exact ⟨h, by simp [Apart], List.isChain_singleton _⟩
  have hopen : Apart '(' '(' := by simp [Apart]
  simpa [IsFilled] using List.isChain_cons_cons.2 ⟨hopen, hclose⟩

theorem intercalate {separator : String} {texts : List String} (hseparator : IsFilled separator)
    (htexts : ∀ text ∈ texts, IsFilled text) (hne : texts ≠ []) :
    IsFilled (separator.intercalate texts) := by
  induction texts with
  | nil => exact absurd rfl hne
  | cons text texts ih =>
      rw [List.forall_mem_cons] at htexts
      cases texts with
      | nil => simpa using htexts.1
      | cons next texts =>
          rw [String.intercalate_cons_cons]
          exact (htexts.1.append hseparator).append (ih htexts.2 (List.cons_ne_nil _ _))

theorem no_empty_pair (h : IsFilled text) : ¬ "()".toList <:+: text.toList := by
  intro hinfix
  have htext := (List.isChain_cons.1 h).2.left_of_append
  have hchain := List.IsChain.infix htext hinfix
  have hapart : Apart '(' ')' := (List.isChain_cons_cons.1 hchain).1
  exact hapart ⟨rfl, rfl⟩

end IsFilled

theorem isNoParenthesis_of_isPathChar {c : Char} (h : isPathChar c = true) :
    isNoParenthesis c = true := by
  by_contra hc
  have hparenthesis : c = '(' ∨ c = ')' := by
    by_contra hother
    rw [not_or] at hother
    simp [isNoParenthesis, hother] at hc
  rcases hparenthesis with rfl | rfl <;> exact absurd h (by decide)

theorem MadeOf.hasNoParenthesis {text : String} (h : MadeOf isPathChar text) :
    MadeOf isNoParenthesis text :=
  h.mono fun _ => isNoParenthesis_of_isPathChar

/-- An owner without parentheses gives columns without them. -/
theorem Scope.Gives.hasNoParenthesis {column : ColumnRef} (h : scope.Gives column)
    (howner : MadeOf isNoParenthesis scope.owner) : MadeOf isNoParenthesis column.sql := by
  obtain ⟨identifier, hcolumn⟩ := h
  obtain ⟨aliasName, segments, rfl, haliasName, -, hwords⟩ :=
    ColumnRef.exists_words_of_resolve hcolumn
  have halias : MadeOf isNoParenthesis aliasName :=
    haliasName.elim (fun hword => hword.isPath.hasNoParenthesis) fun heq => heq ▸ howner
  exact (halias.append (by decide)).append
    (.intercalate (by decide) fun word hword => (hwords word hword).isPath.hasNoParenthesis)

theorem hasNoParenthesis_partName {name : String} (hname : MadeOf isNoParenthesis name)
    (siblings index : Nat) : MadeOf isNoParenthesis (partName name siblings index) := by
  unfold partName
  split
  · exact hname
  · exact (hname.append (by decide)).append (isWord_toString index).isPath.hasNoParenthesis

theorem Predicate.Placed.isFilled {name : String} {predicate : Predicate}
    (h : predicate.Placed scope name) (howner : MadeOf isNoParenthesis scope.owner)
    (hname : MadeOf isNoParenthesis name) : IsFilled predicate.sql := by
  have hoperator : MadeOf isNoParenthesis predicate.operator.sql := by
    cases predicate.operator <;> decide
  have hcolumn : ∀ column, scope.Gives column → IsFilled column.sql := fun column hgives =>
    isFilled_of_madeOf (hgives.hasNoParenthesis howner) (ne_empty_of_mem column.dot_mem_sql)
  have hblank : IsFilled " " := isFilled_of_madeOf (by decide) (by decide)
  have hcolon : IsFilled ":" := isFilled_of_madeOf (by decide) (by decide)
  rw [sql_eq_term]
  apply ((((hcolumn _ h.gives_column).append hblank).extend hoperator).append hblank).append
  cases h with
  | compare => exact hcolon.extend hname
  | member =>
      have hspread : IsFilled ":..." := isFilled_of_madeOf (by decide) (by decide)
      rw [term, Term.sql_spread]
      exact (hspread.extend hname).parenthesized
  | range =>
      have hlow : MadeOf isNoParenthesis (lowParameter name) := hname.append (by decide)
      have hhigh : MadeOf isNoParenthesis (highParameter name) := hname.append (by decide)
      have hand : IsFilled " AND :" := isFilled_of_madeOf (by decide) (by decide)
      exact ((hcolon.extend hlow).append hand).extend hhigh
  | columns _ _ hother => exact hcolumn _ hother

theorem Expr.isFilled_partsSql (connective : Connective) {parts : List Expr} (hne : parts ≠ [])
    (hparts : ∀ part ∈ parts, IsFilled part.sql) :
    IsFilled (connective.separator.intercalate (partsSql parts)) := by
  have hseparator : IsFilled connective.separator := by
    cases connective <;> exact isFilled_of_madeOf (by decide) (by decide)
  rw [partsSql_eq_map]
  exact .intercalate hseparator (List.forall_mem_map.2 hparts) (by simpa using hne)

theorem Expr.Placed.isFilled {name : String} {expr : Expr} (h : expr.Placed scope name)
    (howner : MadeOf isNoParenthesis scope.owner) (hname : MadeOf isNoParenthesis name)
    (hfull : expr.IsFull) : IsFilled expr.sql := by
  induction h with
  | leaf hpredicate => exact hpredicate.isFilled howner hname
  | @ofParts name connective parts h ih =>
      rw [isFull_ofParts] at hfull
      have hparts : ∀ part ∈ parts, IsFilled part.sql := by
        intro part hpart
        obtain ⟨index, hindex⟩ := exists_mem_zipIdx hpart
        exact ih _ hindex (hasNoParenthesis_partName hname _ _) (hfull.2 part hpart)
      unfold Expr.ofParts
      split
      · next part => exact hparts part List.mem_cons_self
      · rw [sql]
        exact (isFilled_partsSql connective hfull.1 hparts).parenthesized

/-- Without an empty group there is no empty pair of parentheses. -/
theorem Restriction.Placed.no_empty_pair {restriction : Restriction}
    (h : restriction.Placed scope space) (howner : MadeOf isNoParenthesis scope.owner)
    (hspace : MadeOf isNoParenthesis space) (hfull : restriction.IsFull) :
    ¬ "()".toList <:+: restriction.sql.toList := by
  obtain ⟨connective, parts⟩ := restriction
  by_cases hparts : parts = []
  · subst hparts
    simp [sql, Expr.partsSql]
  · apply IsFilled.no_empty_pair
    refine Expr.isFilled_partsSql connective hparts fun part hpart => ?_
    obtain ⟨index, hindex⟩ := exists_mem_zipIdx hpart
    have hname : MadeOf isNoParenthesis (rootName space index) :=
      hspace.append (isWord_toString index).isPath.hasNoParenthesis
    exact (h _ hindex).isFilled howner hname (hfull part hpart)

/-! ### Statements -/

theorem Filter.isFull_of_restriction {filter : Filter} {restriction : Restriction}
    (h : filter.restriction wildcards scope space = .ok restriction) :
    restriction.IsFull ∧ restriction.isEmpty = filter.isEmpty := by
  obtain ⟨formula, hread, h⟩ := bind_eq_ok.1 h
  exact Formula.isFull_of_restriction hread h

theorem Restriction.isFull_none : Restriction.none.IsFull := by
  simp [IsFull, none]

namespace Assembler

variable {assembler : Assembler} {request : Request} {main : Scope} {select : Select}

theorem Stages.isFull_filter (h : assembler.Stages request main scope select) :
    select.filter.IsFull ∧ select.filter.isEmpty = !request.isFiltered := by
  have hfilter := h.filter
  cases hrequest : request.filter with
  | none =>
      rw [hrequest] at hfilter
      have hnone : Restriction.none = select.filter := Except.ok.inj hfilter
      rw [← hnone]
      refine ⟨Restriction.isFull_none, ?_⟩
      simp [Request.isFiltered, hrequest, Restriction.isEmpty, Restriction.none]
  | some filter =>
      rw [hrequest] at hfilter
      obtain ⟨hfull, hempty⟩ := Filter.isFull_of_restriction (mapError_eq_ok.1 hfilter)
      exact ⟨hfull, by simp [Request.isFiltered, hrequest, hempty]⟩

theorem isFull_of_joinCondition {ordinal : Nat} {join : JoinRequest} {condition : Restriction}
    (h : assembler.joinCondition scope ordinal join = .ok condition) :
    condition.IsFull ∧
      (condition.isEmpty = true ↔ ∀ filter ∈ join.condition, filter.isEmpty = true) := by
  unfold joinCondition at h
  split at h
  · next hnone =>
      obtain rfl := Except.ok.inj h
      exact ⟨Restriction.isFull_none, by simp [hnone, Restriction.isEmpty, Restriction.none]⟩
  · next filter hsome =>
      obtain ⟨hfull, hempty⟩ := Filter.isFull_of_restriction (mapError_eq_ok.1 h)
      exact ⟨hfull, by simp [hsome, hempty]⟩

end Assembler

/-- A condition with parts is not the one that every pair of rows meets. -/
theorem Join.conditionSql_eq_iff {join : Join} (h : join.condition.IsFull) :
    join.conditionSql = "1 = 1" ↔ join.condition.isEmpty = true := by
  unfold conditionSql
  split
  · next hempty => simp [hempty]
  · next hne =>
      have hdot := h.dot_mem_sql (by simpa using hne)
      constructor
      · intro hsql
        rw [hsql] at hdot
        exact absurd hdot (by decide)
      · intro hempty
        exact absurd hempty hne

theorem Join.sql_eq_iff {join : Join} :
    join.sql = " " ++ join.kind.sql ++ " " ++ tableSql join.table join.aliasName ++ " ON 1 = 1" ↔
      join.conditionSql = "1 = 1" := by
  have hon : " ON 1 = 1" = " ON " ++ "1 = 1" := by decide
  rw [sql, hon, ← String.append_assoc]
  simp only [← String.toList_inj, String.toList_append, List.append_cancel_left_eq]

theorem Assembler.Stages.isUnconditional_iff {assembler : Assembler} {request : Request}
    {main scope : Scope} {select : Select} (h : assembler.Stages request main scope select) :
    List.Forall₂ (fun (written : JoinRequest) (join : Join) =>
        join.sql =
            " " ++ join.kind.sql ++ " " ++ tableSql join.table join.aliasName ++ " ON 1 = 1" ↔
          ∀ filter ∈ written.condition, filter.isEmpty = true)
      request.joins select.joins := by
  have hjoins := h.joins
  rw [joinClauses_eq_mapM, mapM_eq_ok] at hjoins
  have hwritten := List.zipIdx_map_fst 0 request.joins
  rw [← hwritten, List.forall₂_map_left_iff]
  refine hjoins.imp ?_
  intro written join hjoin
  obtain ⟨-, condition, hcondition, rfl⟩ := joinClause_eq_ok.1 hjoin
  obtain ⟨hfull, hempty⟩ := isFull_of_joinCondition hcondition
  rw [Join.sql_eq_iff, Join.conditionSql_eq_iff hfull]
  exact hempty

/-- What has been read can be lowered, but for names that do not denote a column. The text is empty
only for a filter without content, no group and no list in it is empty, and a statement restricts
its rows, or those of a join, exactly where the request has a filter with content. -/
theorem lowers_what_is_read :
    (∀ (wildcards : Wildcards) (scope : Scope) (space : String) (filter : Filter)
        (formula : Formula), Formula.ofFilter wildcards filter = .ok formula →
      (∀ fault, formula.restriction scope space = .error fault → ∃ name, fault = .name name) ∧
      ∀ restriction, formula.restriction scope space = .ok restriction →
        (restriction.sql = "" ↔ filter.isEmpty = true) ∧
        (∀ part ∈ restriction.parts, ∀ inner : Expr, inner.Within part →
          inner.sql ≠ "" ∧ inner.sql ≠ "()") ∧
        (MadeOf isNoParenthesis space → MadeOf isNoParenthesis scope.owner →
          ¬ "()".toList <:+: restriction.sql.toList) ∧
        ∀ name values, (name, Argument.many values) ∈ restriction.bindings.entries →
          values ≠ []) ∧
    ∀ (assembler : Assembler) (request : Request) (select : Select),
      assembler.assemble request = .ok select →
        (select.whereSql = if request.isFiltered then " WHERE " ++ select.filter.sql else "") ∧
        (select.filter.sql = "" ↔ request.isFiltered = false) ∧
        (∀ query ∈ select.queries, ∃ before after, query.sql =
          before ++ (" FROM " ++ tableSql select.table select.aliasName ++
            String.join (select.joins.map Join.sql) ++ select.whereSql) ++ after) ∧
        List.Forall₂ (fun (written : JoinRequest) (join : Join) =>
            join.sql =
                " " ++ join.kind.sql ++ " " ++ tableSql join.table join.aliasName ++ " ON 1 = 1" ↔
              ∀ filter ∈ written.condition, filter.isEmpty = true)
          request.joins select.joins := by
  refine ⟨?_, ?_⟩
  · intro wildcards scope space filter formula hread
    have hchecks := Formula.isFit_of_ofFilter hread
    refine ⟨fun fault hfault => Formula.isName_of_restriction hchecks hfault, ?_⟩
    intro restriction hrestriction
    have hplaced := Formula.placed_of_restriction hrestriction
    obtain ⟨hfull, hempty⟩ := Formula.isFull_of_restriction hread hrestriction
    refine ⟨?_, ?_, fun hspace howner => hplaced.no_empty_pair howner hspace hfull, ?_⟩
    · rw [hfull.sql_eq_empty_iff, hempty]
    · intro part hpart inner hinner
      have hdot := (hinner.isFull (hfull part hpart)).dot_mem_sql
      refine ⟨ne_empty_of_mem hdot, ?_⟩
      intro hsql
      rw [hsql] at hdot
      exact absurd hdot (by decide)
    · intro name values hvalues
      rw [hplaced.entries_bindings] at hvalues
      exact Formula.ne_nil_of_mem_arguments hchecks hrestriction hvalues
  · intro assembler request select h
    obtain ⟨main, scope, hstages⟩ := Assembler.assemble_eq_ok.1 h
    obtain ⟨hfull, hempty⟩ := hstages.isFull_filter
    refine ⟨?_, ?_, ?_, hstages.isUnconditional_iff⟩
    · rw [Select.whereSql, hempty]
      cases request.isFiltered <;> rfl
    · rw [hfull.sql_eq_empty_iff, hempty, Bool.not_eq_true']
    · intro query hquery
      obtain ⟨before, after, hsql, -, -⟩ := hstages.isChecked.exists_frame hquery
      exact ⟨before, after, hsql⟩

/-- A filter with a list, and joins with a condition, an empty one and none. -/
theorem lowers_what_is_read_joined :
    let filter := Filter.object [("$or", .list [
      .object [("id", .object [("$in", .list [.scalar (.int 1)])])],
      .object [("name", .scalar .null), ("age", .object [("$gtCol", .scalar (.text "id"))])]])]
    let request : Request := { Request.empty with
      select := ["id"]
      filter := some filter
      joins := [⟨.left, "orders", some "o", some (.object [("id", .scalar (.int 2))])⟩,
        ⟨.inner, "items", none, some (.list [])⟩, ⟨.left, "notes", none, none⟩] }
    let scope := Scope.ofMain "users"
    ∃ formula restriction select, Formula.ofFilter .anywhere filter = .ok formula ∧
      formula.restriction scope "" = .ok restriction ∧
      (Assembler.ofTable "users").assemble request = .ok select ∧
      restriction.sql ≠ "" ∧
      (∀ part ∈ restriction.parts, ∀ inner : Expr, inner.Within part →
        inner.sql ≠ "" ∧ inner.sql ≠ "()") ∧
      ¬ "()".toList <:+: restriction.sql.toList ∧
      (∀ name values, (name, Argument.many values) ∈ restriction.bindings.entries →
        values ≠ []) ∧
      select.whereSql = " WHERE " ++ select.filter.sql ∧
      select.joins.map Join.sql = [" LEFT JOIN orders o ON o.id = :J_0_0",
        " INNER JOIN items ON 1 = 1", " LEFT JOIN notes ON 1 = 1"] ∧
      List.Forall₂ (fun (written : JoinRequest) (join : Join) =>
          join.sql =
              " " ++ join.kind.sql ++ " " ++ tableSql join.table join.aliasName ++ " ON 1 = 1" ↔
            ∀ filter ∈ written.condition, filter.isEmpty = true)
        request.joins select.joins := by
  intro filter request scope
  obtain ⟨formula, restriction, hread, hrestriction⟩ : ∃ formula restriction,
      Formula.ofFilter .anywhere filter = .ok formula ∧
        formula.restriction scope "" = .ok restriction := ⟨_, _, by cbv, by cbv⟩
  obtain ⟨select, hselect, hjoins⟩ : ∃ select,
      (Assembler.ofTable "users").assemble request = .ok select ∧
        select.joins.map Join.sql = [" LEFT JOIN orders o ON o.id = :J_0_0",
          " INNER JOIN items ON 1 = 1", " LEFT JOIN notes ON 1 = 1"] := ⟨_, by cbv, by cbv⟩
  obtain ⟨-, hlowered⟩ := lowers_what_is_read.1 _ scope "" filter formula hread
  obtain ⟨hsql, hinner, hparentheses, hlists⟩ := hlowered restriction hrestriction
  obtain ⟨hwhere, -, -, hconditions⟩ := lowers_what_is_read.2 _ request select hselect
  exact ⟨formula, restriction, select, hread, hrestriction, hselect, by rw [Ne, hsql]; decide,
    hinner, hparentheses (by decide) (by decide), hlists, hwhere, hjoins, hconditions⟩

end FilterSql
