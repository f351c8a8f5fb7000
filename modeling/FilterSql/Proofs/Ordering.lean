import FilterSql.Proofs.Lowering
import FilterSql.Proofs.Positional
import FilterSql.Proofs.Tokens

/-! The order of a statement. Outside of parentheses the text of a statement holds as many orders as
the statement has, one or none, because no other clause writes the word `ORDER` but as the name of a
table. -/

namespace FilterSql

/-- A term starts with the word: a column stands behind its table, all else in parentheses. -/
def startsTerm (word : String) : Bool := word = "(" || word.toList.contains '.'

/-- The words start an order. A table may be called `ORDER` and go by `BY`, so it takes a term to
tell. -/
def startsOrder : List String → Bool
  | "ORDER" :: "BY" :: term :: _ => startsTerm term
  | _ => false

/-- How many more parentheses are open behind the word than in front of it. -/
def nesting (word : String) : Int := if word = "(" then 1 else if word = ")" then -1 else 0

/-- The orders among words of which the first stands within `depth` parentheses. Only those that
stand within none count. -/
def countOrders (depth : Int) : List String → Nat
  | [] => 0
  | word :: words =>
    (if depth = 0 ∧ startsOrder (word :: words) = true then 1 else 0) +
      countOrders (depth + nesting word) words

/-- The number of `ORDER BY` clauses of a text that stand outside of all parentheses. -/
def outerOrders (text : String) : Nat := countOrders 0 (tokens text)

example : outerOrders "SELECT BY.id FROM ORDER BY ORDER BY BY.id ASC, BY.sum DESC" = 1 := by
  decide +kernel

/-! ### Words -/

/-- How many parentheses the words leave open. -/
def level (words : List String) : Int := (words.map nesting).sum

theorem level_append (front back : List String) :
    level (front ++ back) = level front + level back := by
  simp [level]

/-- No order that starts in front of the words goes on with them. -/
def Breaks (words : List String) : Prop :=
  ∀ word ∈ words.head?, word ≠ "BY" ∧ startsTerm word = false

instance (words : List String) : Decidable (Breaks words) :=
  inferInstanceAs (Decidable (∀ word ∈ words.head?, word ≠ "BY" ∧ startsTerm word = false))

theorem startsOrder_eq_true {words : List String} :
    startsOrder words = true ↔
      ∃ term rest, words = "ORDER" :: "BY" :: term :: rest ∧ startsTerm term = true := by
  unfold startsOrder
  split
  · simp
  · next hother =>
      refine ⟨by simp, ?_⟩
      rintro ⟨term, rest, rfl, -⟩
      exact absurd rfl (hother term rest)

theorem startsOrder_append {word : String} {front back : List String} (hback : Breaks back) :
    startsOrder (word :: (front ++ back)) = startsOrder (word :: front) := by
  rw [Bool.eq_iff_iff, startsOrder_eq_true, startsOrder_eq_true]
  constructor
  · rintro ⟨term, rest, heq, hterm⟩
    obtain ⟨rfl, hwords⟩ := List.cons.inj heq
    rcases front with _ | ⟨first, _ | ⟨second, front⟩⟩
    · rw [List.nil_append] at hwords
      exact absurd rfl (hback "BY" (by simp [hwords])).1
    · obtain ⟨-, hwords⟩ := List.cons.inj hwords
      have hbroken := hback term (by simpa using congrArg List.head? hwords)
      rw [hbroken.2] at hterm
      contradiction
    · obtain ⟨hfirst, hwords⟩ := List.cons.inj hwords
      obtain ⟨hsecond, -⟩ := List.cons.inj hwords
      exact ⟨second, front, by rw [hfirst], hsecond ▸ hterm⟩
  · rintro ⟨term, rest, heq, hterm⟩
    obtain ⟨rfl, rfl⟩ := List.cons.inj heq
    exact ⟨term, rest ++ back, rfl, hterm⟩

theorem countOrders_append {front back : List String} (depth : Int) (hback : Breaks back) :
    countOrders depth (front ++ back) =
      countOrders depth front + countOrders (depth + level front) back := by
  induction front generalizing depth with
  | nil => simp [countOrders, level]
  | cons word front ih =>
      have hlevel : level (word :: front) = nesting word + level front := by simp [level]
      rw [List.cons_append, countOrders, countOrders, startsOrder_append hback, ih, hlevel,
        add_assoc, add_assoc]

/-- An order needs two more words behind the first one. -/
theorem countOrders_eq_zero {words : List String} (depth : Int)
    (h : "ORDER" ∉ words.dropLast.dropLast) : countOrders depth words = 0 := by
  induction words generalizing depth with
  | nil => rfl
  | cons word words ih =>
      rcases words with _ | ⟨second, _ | ⟨third, words⟩⟩
      · simp [countOrders, startsOrder]
      · simp [countOrders, startsOrder]
      · have hdrop : (word :: second :: third :: words).dropLast.dropLast =
            word :: (second :: third :: words).dropLast.dropLast := by simp
        rw [hdrop, List.mem_cons, not_or] at h
        have hstart : startsOrder (word :: second :: third :: words) = false := by
          by_contra hstart
          rw [Bool.not_eq_false, startsOrder_eq_true] at hstart
          obtain ⟨term, rest, heq, -⟩ := hstart
          exact h.1 (List.cons.inj heq).1.symm
        rw [countOrders, ih _ h.2, hstart]
        simp

/-! ### Texts -/

/-- The text closes all its parentheses. -/
def IsBalanced (text : String) : Prop := level (tokens text) = 0

instance (text : String) : Decidable (IsBalanced text) :=
  inferInstanceAs (Decidable (level (tokens text) = 0))

/-- The text may stand behind every other one and takes part in none of its orders. -/
structure IsAdded (text : String) : Prop where
  opens : Opens text
  breaks : Breaks (tokens text)

theorem isAdded_empty : IsAdded "" := ⟨by decide, by decide⟩

theorem isAdded_append {keyword : String} (hopens : keyword.toList.head?.any isSeparator = true)
    (hcloses : Closes keyword) (hne : tokens keyword ≠ []) (hbreaks : Breaks (tokens keyword))
    (text : String) : IsAdded (keyword ++ text) := by
  refine ⟨opens_append hopens text, ?_⟩
  rw [tokens_append_of_closes hcloses]
  intro word hword
  rw [List.head?_append_of_ne_nil _ hne] at hword
  exact hbreaks word hword

theorem IsAdded.append {text text' : String} (h : IsAdded text) (h' : IsAdded text') :
    IsAdded (text ++ text') := by
  refine ⟨h.opens.append h'.opens, ?_⟩
  rw [tokens_append_of_opens text h'.opens]
  intro word hword
  rw [List.head?_append] at hword
  cases hfirst : (tokens text).head? with
  | none => exact h'.breaks word (by simpa [hfirst] using hword)
  | some first => exact h.breaks word (by simpa [hfirst] using hword)

theorem nesting_of_isInner {word : String} (h : MadeOf isInner word) : nesting word = 0 := by
  have hopen : word ≠ "(" := by
    rintro rfl
    exact absurd h (by decide)
  have hclose : word ≠ ")" := by
    rintro rfl
    exact absurd h (by decide)
  rw [nesting, if_neg hopen, if_neg hclose]

theorem isBalanced_of_isInner {text : String} (h : MadeOf isInner text) (hne : text ≠ "") :
    IsBalanced text := by
  rw [IsBalanced, tokens_of_isInner hne h]
  simp [level, nesting_of_isInner h]

theorem IsBalanced.append {text text' : String} (h : IsBalanced text) (h' : IsBalanced text')
    (hopens : Opens text') : IsBalanced (text ++ text') := by
  unfold IsBalanced at h h' ⊢
  rw [tokens_append_of_opens text hopens, level_append, h, h', add_zero]

theorem outerOrders_append {text text' : String} (h : IsBalanced text) (h' : IsAdded text') :
    outerOrders (text ++ text') = outerOrders text + outerOrders text' := by
  unfold outerOrders
  rw [tokens_append_of_opens text h'.opens, countOrders_append 0 h'.breaks, h, add_zero]

/-- No word of the text is `ORDER`, and it closes all its parentheses. -/
structure IsOrderless (text : String) : Prop where
  absent : "ORDER" ∉ tokens text
  balanced : IsBalanced text

namespace IsOrderless

variable {text text' : String}

theorem of_isInner (hinner : MadeOf isInner text) (hne : text ≠ "") (horder : text ≠ "ORDER") :
    IsOrderless text := by
  refine ⟨?_, isBalanced_of_isInner hinner hne⟩
  rw [tokens_of_isInner hne hinner, List.mem_singleton]
  exact horder.symm

theorem append_of_opens (h : IsOrderless text) (h' : IsOrderless text') (hopens : Opens text') :
    IsOrderless (text ++ text') := by
  refine ⟨?_, h.balanced.append h'.balanced hopens⟩
  rw [tokens_append_of_opens text hopens, List.mem_append, not_or]
  exact ⟨h.absent, h'.absent⟩

theorem append_of_closes (h : IsOrderless text) (hcloses : Closes text)
    (h' : IsOrderless text') : IsOrderless (text ++ text') := by
  refine ⟨?_, ?_⟩
  · rw [tokens_append_of_closes hcloses, List.mem_append, not_or]
    exact ⟨h.absent, h'.absent⟩
  · rw [IsBalanced, tokens_append_of_closes hcloses, level_append, h.balanced, h'.balanced]
    rfl

theorem parenthesize (h : IsOrderless text) : IsOrderless ("(" ++ text ++ ")") := by
  have htokens : tokens ("(" ++ text ++ ")") = ["("] ++ tokens text ++ [")"] := by
    rw [tokens_append_of_opens _ (by decide), tokens_append_of_closes (by decide)]
    rfl
  have hinner := h.balanced
  refine ⟨?_, ?_⟩
  · rw [htokens]
    simp [h.absent]
  · unfold IsBalanced at hinner ⊢
    rw [htokens, level_append, level_append, hinner]
    rfl

theorem intercalate {separator : String} {texts : List String} (hseparator : IsOrderless separator)
    (hopens : separator.toList.head?.any isSeparator = true) (hcloses : Closes separator)
    (htexts : ∀ text ∈ texts, IsOrderless text) : IsOrderless (separator.intercalate texts) := by
  induction texts with
  | nil =>
      rw [String.intercalate_nil]
      exact ⟨by decide, by decide⟩
  | cons text texts ih =>
      rw [List.forall_mem_cons] at htexts
      cases texts with
      | nil => simpa using htexts.1
      | cons next texts =>
          rw [String.intercalate_cons_cons, String.append_assoc]
          apply htexts.1.append_of_opens _ (opens_append hopens _)
          exact hseparator.append_of_closes hcloses (ih htexts.2)

theorem outerOrders (h : IsOrderless text) : outerOrders text = 0 := by
  apply countOrders_eq_zero
  intro hmem
  exact h.absent (List.mem_of_mem_dropLast (List.mem_of_mem_dropLast hmem))

end IsOrderless

instance (text : String) : Decidable (IsOrderless text) :=
  decidable_of_iff ("ORDER" ∉ tokens text ∧ IsBalanced text)
    ⟨fun h => ⟨h.1, h.2⟩, fun h => ⟨h.absent, h.balanced⟩⟩

theorem exists_tokens_intercalate (separator : String)
    (hopens : separator.toList.head?.any isSeparator = true) (text : String)
    (texts : List String) :
    ∃ words, tokens (separator.intercalate (text :: texts)) = tokens text ++ words := by
  cases texts with
  | nil => exact ⟨[], by simp⟩
  | cons next texts =>
      rw [String.intercalate_cons_cons, String.append_assoc]
      exact ⟨_, tokens_append_of_opens text (opens_append hopens _)⟩

/-! ### Conditions -/

variable {scope : Scope} {name space : String}

theorem ColumnRef.IsNamed.inner {column : ColumnRef} (h : column.IsNamed) :
    MadeOf isInner column.sql := by
  cases column with
  | path owner segments =>
      have hpath : MadeOf isPathChar (path owner segments).sql := IsSingle.isPath ⟨rfl, h⟩
      exact hpath.mono fun _ => isInner_of_isPathChar
  | all owner =>
      have howner : IsWord owner := h
      have hstar : MadeOf isInner (".".intercalate ["*"]) := by decide
      exact (howner.inner.append (by decide)).append hstar

theorem ColumnRef.IsNamed.isOrderless {column : ColumnRef} (h : column.IsNamed) :
    IsOrderless column.sql := by
  apply IsOrderless.of_isInner h.inner (ne_empty_of_mem column.dot_mem_sql)
  intro hsql
  have hdot := column.dot_mem_sql
  rw [hsql] at hdot
  exact absurd hdot (by decide)

theorem IsWord.isOrderless_slot {mark : String} (hmark : ':' ∈ mark.toList)
    (hinner : MadeOf isInner mark) {name : String} (h : IsWord name) :
    IsOrderless (mark ++ name) := by
  have hcolon : ':' ∈ (mark ++ name).toList := by
    rw [String.toList_append]
    exact List.mem_append_left _ hmark
  apply IsOrderless.of_isInner (hinner.append h.inner) (ne_empty_of_mem hcolon)
  intro hname
  rw [hname] at hcolon
  exact absurd hcolon (by decide)

theorem Term.Follows.isOrderless {operator : String} {term : Term} (h : term.Follows operator) :
    IsOrderless term.sql := by
  cases term with
  | parameter name => exact h.2.isOrderless_slot (by decide) (by decide)
  | spread name =>
      have hslot : IsOrderless (":..." ++ name) := h.2.isOrderless_slot (by decide) (by decide)
      rw [sql_spread]
      exact hslot.parenthesize
  | between low high =>
      have hlow : IsOrderless (":" ++ low) := h.2.1.isOrderless_slot (by decide) (by decide)
      have hhigh : IsOrderless (":" ++ high) := h.2.2.isOrderless_slot (by decide) (by decide)
      have hsql : (Term.between low high).sql = " AND ".intercalate [":" ++ low, ":" ++ high] := by
        rw [sql_between, ← String.append_assoc]
        simp
      rw [hsql]
      apply IsOrderless.intercalate (by decide) (by decide) (by decide)
      simpa using ⟨hlow, hhigh⟩
  | column other => exact h.2.2.isOrderless

theorem Predicate.Placed.isOrderless {predicate : Predicate} (h : predicate.Placed scope name)
    (howner : IsWord scope.owner) (hname : IsWord name) : IsOrderless predicate.sql := by
  have hoperator : IsOrderless predicate.operator.sql := by
    cases predicate.operator <;> decide
  have hsql : predicate.sql =
      " ".intercalate [predicate.column.sql, predicate.operator.sql, predicate.term.sql] := by
    rw [sql_eq_term, ← String.toList_inj]
    simp
  rw [hsql]
  apply IsOrderless.intercalate (by decide) (by decide) (by decide)
  simpa using ⟨(h.isSingle howner).2.isOrderless, hoperator,
    (h.follows howner hname).isOrderless⟩

theorem Expr.isOrderless_intercalate (connective : Connective) {parts : List Expr}
    (hparts : ∀ part ∈ parts, IsOrderless part.sql) :
    IsOrderless (connective.separator.intercalate (partsSql parts)) := by
  rw [partsSql_eq_map]
  have htexts : ∀ text ∈ parts.map sql, IsOrderless text := List.forall_mem_map.2 hparts
  cases connective with
  | and => exact .intercalate (by decide) (by decide) (by decide) htexts
  | or => exact .intercalate (by decide) (by decide) (by decide) htexts

theorem Expr.Placed.isOrderless {expr : Expr} (h : expr.Placed scope name)
    (howner : IsWord scope.owner) (hname : IsWord name) : IsOrderless expr.sql := by
  refine h.word_induction hname (fun h hname => h.isOrderless howner hname) ?_
  intro connective parts hparts
  unfold Expr.ofParts
  split
  · simpa using hparts
  · exact (isOrderless_intercalate connective hparts).parenthesize

theorem Restriction.Placed.isOrderless {restriction : Restriction}
    (h : restriction.Placed scope space) (howner : IsWord scope.owner)
    (hspace : MadeOf isWordChar space) : IsOrderless restriction.sql := by
  apply Expr.isOrderless_intercalate
  intro part hpart
  obtain ⟨name, hname, hplaced⟩ := h.exists_word hspace hpart
  exact hplaced.isOrderless howner hname

/-! ### Statements -/

/-- The text closes all its parentheses, holds no order and may stand behind every other one. -/
structure IsSilent (text : String) : Prop where
  balanced : IsBalanced text
  silent : outerOrders text = 0
  added : IsAdded text

theorem isSilent_empty : IsSilent "" := ⟨by decide, by decide, isAdded_empty⟩

theorem IsSilent.append {text text' : String} (h : IsSilent text) (h' : IsSilent text') :
    IsSilent (text ++ text') := by
  refine ⟨h.balanced.append h'.balanced h'.added.opens, ?_, h.added.append h'.added⟩
  rw [outerOrders_append h.balanced h'.added, h.silent, h'.silent]

theorem isSilent_join {texts : List String} (htexts : ∀ text ∈ texts, IsSilent text) :
    IsSilent (String.join texts) := by
  induction texts with
  | nil => exact isSilent_empty
  | cons text texts ih =>
      rw [List.forall_mem_cons] at htexts
      rw [String.join_cons]
      exact htexts.1.append (ih htexts.2)

theorem IsOrderless.isSilent {text : String} (h : IsOrderless text) (hadded : IsAdded text) :
    IsSilent text :=
  ⟨h.balanced, h.outerOrders, hadded⟩

/-- A keyword that no order goes on with, between separators. -/
structure IsLead (keyword : String) : Prop where
  opens : keyword.toList.head?.any isSeparator = true
  closes : Closes keyword
  ne_nil : tokens keyword ≠ []
  breaks : Breaks (tokens keyword)
  orderless : IsOrderless keyword

instance (keyword : String) : Decidable (IsLead keyword) :=
  decidable_of_iff (keyword.toList.head?.any isSeparator = true ∧ Closes keyword ∧
      tokens keyword ≠ [] ∧ Breaks (tokens keyword) ∧ IsOrderless keyword)
    ⟨fun h => ⟨h.1, h.2.1, h.2.2.1, h.2.2.2.1, h.2.2.2.2⟩,
      fun h => ⟨h.opens, h.closes, h.ne_nil, h.breaks, h.orderless⟩⟩

theorem IsLead.isSilent {keyword text : String} (h : IsLead keyword) (htext : IsOrderless text) :
    IsSilent (keyword ++ text) :=
  (h.orderless.append_of_closes h.closes htext).isSilent
    (isAdded_append h.opens h.closes h.ne_nil h.breaks text)

/-! ### Clauses -/

theorem IsPath.inner {text : String} (h : IsPath text) : MadeOf isInner text :=
  h.madeOf.mono fun _ => isInner_of_isPathChar

theorem IsPath.ne_empty {text : String} (h : IsPath text) : text ≠ "" := by
  obtain ⟨segments, hpath⟩ := h
  rintro rfl
  exact absurd hpath (by simp [Identifier.path, Identifier.readPath?, Identifier.readWord?])

theorem tokens_tableSql {table aliasName : String} (htable : IsPath table)
    (haliasName : IsWord aliasName) :
    tokens (tableSql table aliasName) = [table] ∨
      tokens (tableSql table aliasName) = [table, aliasName] := by
  have hname : tokens table = [table] := tokens_of_isInner htable.ne_empty htable.inner
  unfold tableSql
  split
  · exact .inl hname
  · rw [tokens_append_of_closes (Closes.append table (by decide)),
      tokens_append_of_opens table (by decide), hname, haliasName.tokens]
    exact .inr rfl

/-- Even a table that is called `ORDER` starts no order where it is named, for no more than its
alias follows. -/
theorem IsLead.isSilent_tableSql {keyword table aliasName : String} (h : IsLead keyword)
    (htable : IsPath table) (haliasName : IsWord aliasName) :
    IsSilent (keyword ++ tableSql table aliasName) := by
  have hkeyword : level (tokens keyword) = 0 := h.orderless.balanced
  have habsent := h.orderless.absent
  have hnesting := nesting_of_isInner htable.inner
  have hnesting' := nesting_of_isInner haliasName.inner
  have hdropped : "ORDER" ∉ (tokens keyword).dropLast :=
    fun hmem => habsent (List.mem_of_mem_dropLast hmem)
  refine ⟨?_, ?_, isAdded_append h.opens h.closes h.ne_nil h.breaks _⟩
  · rw [IsBalanced, tokens_append_of_closes h.closes, level_append, hkeyword]
    rcases tokens_tableSql htable haliasName with htokens | htokens
    · rw [htokens]
      simp [level, hnesting]
    · rw [htokens]
      simp [level, hnesting, hnesting']
  · apply countOrders_eq_zero
    rw [tokens_append_of_closes h.closes]
    rcases tokens_tableSql htable haliasName with htokens | htokens
    · rw [htokens]
      simpa using hdropped
    · rw [htokens]
      simpa [List.dropLast_append_cons] using habsent

theorem isOrderless_columnsSql {columns : List ColumnRef}
    (h : ∀ column ∈ columns, column.IsNamed) : IsOrderless (columnsSql columns) := by
  apply IsOrderless.intercalate (by decide) (by decide) (by decide)
  intro text htext
  obtain ⟨column, hcolumn, rfl⟩ := List.mem_map.1 htext
  exact (h column hcolumn).isOrderless

theorem Join.IsChecked.isSilent {ordinal : Nat} {join : Join} (h : join.IsChecked scope ordinal) :
    IsSilent join.sql := by
  have hlead : IsLead (" " ++ join.kind.sql ++ " ") := by
    cases join.kind <;> decide
  have hcondition : IsOrderless join.conditionSql := by
    unfold conditionSql
    split
    · decide
    · exact h.condition.isOrderless h.aliasName (madeOf_joinSpace ordinal)
  have hon : IsLead " ON " := by decide
  rw [Join.sql, String.append_assoc]
  exact (hlead.isSilent_tableSql h.table h.aliasName).append (hon.isSilent hcondition)

namespace Select

variable {select : Select}

theorem IsChecked.isSilent_whereSql (h : select.IsChecked scope) : IsSilent select.whereSql := by
  unfold whereSql
  split
  · exact isSilent_empty
  · apply IsLead.isSilent (by decide)
    exact h.filter.isOrderless h.named.owner (by decide)

theorem IsChecked.isSilent_bodySql (h : select.IsChecked scope) : IsSilent select.bodySql := by
  have hfrom : IsLead " FROM " := by decide
  have hjoins : IsSilent (String.join (select.joins.map Join.sql)) := by
    apply isSilent_join
    intro text htext
    obtain ⟨join, hjoin, rfl⟩ := List.mem_map.1 htext
    obtain ⟨ordinal, hchecked⟩ := h.exists_join hjoin
    exact hchecked.isSilent
  exact ((hfrom.isSilent_tableSql h.table h.aliasName).append hjoins).append h.isSilent_whereSql

theorem IsChecked.isSilent_groupSql (h : select.IsChecked scope) : IsSilent select.groupSql := by
  unfold groupSql
  split
  · exact isSilent_empty
  · apply IsLead.isSilent (by decide)
    exact isOrderless_columnsSql fun column hcolumn => (h.group column hcolumn).2

/-- The statement without its window. -/
def clausesSql (select : Select) : String :=
  "SELECT " ++ columnsSql select.columns ++ select.bodySql ++ select.groupSql ++ select.orderSql

theorem outerOrders_orderBy {text term : String} {words : List String} (h : IsOrderless text)
    (htokens : tokens text = term :: words) (hterm : startsTerm term = true) :
    outerOrders (" ORDER BY " ++ text) = 1 := by
  have hkeyword : tokens " ORDER BY " = ["ORDER", "BY"] := by decide
  have hrest : countOrders (0 + nesting "ORDER") ("BY" :: tokens text) = 0 := by
    apply countOrders_eq_zero
    intro hmem
    rcases List.mem_cons.1 (List.mem_of_mem_dropLast (List.mem_of_mem_dropLast hmem)) with hby | hin
    · exact absurd hby (by decide)
    · exact h.absent hin
  have hstart : startsOrder ("ORDER" :: "BY" :: tokens text) = true := by
    rw [htokens]
    exact hterm
  rw [outerOrders, tokens_append_of_closes (by decide), hkeyword, List.cons_append,
    List.singleton_append, countOrders, hrest, hstart]
  rfl

theorem tokens_orderTerm {column : ColumnRef} (hcolumn : column.IsNamed) (direction : Direction) :
    tokens (column.sql ++ " " ++ direction.sql) = [column.sql, direction.sql] := by
  have hname : tokens column.sql = [column.sql] :=
    tokens_of_isInner (ne_empty_of_mem column.dot_mem_sql) hcolumn.inner
  have hdirection : tokens direction.sql = [direction.sql] := by
    cases direction <;> decide
  rw [tokens_append_of_closes (Closes.append column.sql (by decide)),
    tokens_append_of_opens column.sql (by decide), hname, hdirection]
  rfl

theorem isOrderless_orderTerm {column : ColumnRef} (hcolumn : column.IsNamed)
    (direction : Direction) : IsOrderless (column.sql ++ " " ++ direction.sql) := by
  have hdirection : IsOrderless direction.sql := by
    cases direction <;> decide
  have hblank : IsOrderless " " := by decide
  rw [String.append_assoc]
  apply hcolumn.isOrderless.append_of_opens _ (opens_append (by decide) _)
  exact hblank.append_of_closes (by decide) hdirection

theorem IsChecked.isOrderless_orderTerms (h : select.IsChecked scope) :
    IsOrderless (", ".intercalate
      (select.order.map fun term => term.1.sql ++ " " ++ term.2.sql)) := by
  apply IsOrderless.intercalate (by decide) (by decide) (by decide)
  intro text htext
  obtain ⟨term, hterm, rfl⟩ := List.mem_map.1 htext
  exact isOrderless_orderTerm (h.order term hterm).2 term.2

theorem IsChecked.isBalanced_orderSql (h : select.IsChecked scope) :
    IsBalanced select.orderSql := by
  have hkeyword : level (tokens " ORDER BY ") = 0 := by decide
  unfold orderSql
  split
  · decide
  · rw [IsBalanced, tokens_append_of_closes (by decide), level_append, hkeyword,
      h.isOrderless_orderTerms.balanced]
    rfl

theorem IsChecked.outerOrders_orderSql (h : select.IsChecked scope) :
    outerOrders select.orderSql = if select.order = [] then 0 else 1 := by
  have hterms := h.isOrderless_orderTerms
  have hnamed := h.order
  unfold orderSql
  cases horder : select.order with
  | nil => rfl
  | cons term terms =>
      rw [horder, List.map_cons] at hterms
      rw [horder, List.forall_mem_cons] at hnamed
      obtain ⟨words, hwords⟩ := exists_tokens_intercalate ", " (by decide)
        (term.1.sql ++ " " ++ term.2.sql) (terms.map fun term => term.1.sql ++ " " ++ term.2.sql)
      rw [tokens_orderTerm hnamed.1.2] at hwords
      have hcolumn : startsTerm term.1.sql = true := by
        simp [startsTerm, term.1.dot_mem_sql]
      exact outerOrders_orderBy hterms hwords hcolumn

theorem isAdded_orderSql (select : Select) : IsAdded select.orderSql := by
  unfold orderSql
  split
  · exact isAdded_empty
  · exact isAdded_append (by decide) (by decide) (by decide) (by decide) _

theorem IsChecked.isOrderless_front (h : select.IsChecked scope) :
    IsOrderless ("SELECT " ++ columnsSql select.columns) := by
  have hkeyword : IsOrderless "SELECT " := by decide
  exact hkeyword.append_of_closes (by decide) (isOrderless_columnsSql h.columns)

/-- Outside of parentheses a statement has its own order and no other. -/
theorem IsChecked.outerOrders_clausesSql (h : select.IsChecked scope) :
    IsBalanced select.clausesSql ∧
      outerOrders select.clausesSql = if select.order = [] then 0 else 1 := by
  have hfront := h.isOrderless_front
  have hmiddle : IsSilent (select.bodySql ++ select.groupSql) :=
    h.isSilent_bodySql.append h.isSilent_groupSql
  have horder := isAdded_orderSql select
  have hbalanced := hfront.balanced.append hmiddle.balanced hmiddle.added.opens
  have hsql : select.clausesSql = "SELECT " ++ columnsSql select.columns ++
      (select.bodySql ++ select.groupSql) ++ select.orderSql := by
    simp only [clausesSql, String.append_assoc]
  rw [hsql]
  refine ⟨hbalanced.append h.isBalanced_orderSql horder.opens, ?_⟩
  rw [outerOrders_append hbalanced horder, outerOrders_append hfront.balanced hmiddle.added,
    hfront.outerOrders, hmiddle.silent, h.outerOrders_orderSql, Nat.zero_add]

end Select

end FilterSql
