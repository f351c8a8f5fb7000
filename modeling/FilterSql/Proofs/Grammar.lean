import FilterSql.Proofs.Column

/-! A grammar of boolean SQL text, in which `AND` binds more strongly than `OR` and only parentheses
override that. It knows nothing of filters: a text has a reading or it has none. The readings of a
text are unique, because what may follow a part tells where the part ends. -/

namespace FilterSql

def valueOperators : List String :=
  ["=", "!=", ">", ">=", "<", "<=", "IS", "NOT", "IS NOT", "LIKE", "NOT LIKE", "ILIKE", "NOT ILIKE",
    "~", "!~", "~*", "!~*"]

def listOperators : List String := ["IN", "NOT IN"]

def rangeOperators : List String := ["BETWEEN", "NOT BETWEEN"]

def columnOperators : List String := ["=", "!=", ">", ">=", "<", "<="]

/-- What stands to the right of an operator. -/
inductive Term where
  | parameter (name : String)
  | spread (name : String)
  | between (low high : String)
  | column (other : ColumnRef)
  deriving DecidableEq

namespace Term

def sql : Term → String
  | .parameter name => ":" ++ name
  | .spread name => "(:..." ++ name ++ ")"
  | .between low high => ":" ++ low ++ " AND :" ++ high
  | .column other => other.sql

theorem sql_spread (name : String) : (spread name).sql = "(" ++ (":..." ++ name) ++ ")" := by
  rw [sql, ← String.append_assoc]
  rfl

theorem sql_between (low high : String) :
    (between low high).sql = ":" ++ low ++ (" AND " ++ (":" ++ high)) := by
  rw [sql, ← String.toList_inj]
  simp

/-- The term may stand to the right of the operator. -/
def Follows (operator : String) : Term → Prop
  | .parameter name => operator ∈ valueOperators ∧ IsWord name
  | .spread name => operator ∈ listOperators ∧ IsWord name
  | .between low high => operator ∈ rangeOperators ∧ IsWord low ∧ IsWord high
  | .column other => operator ∈ columnOperators ∧ other.IsSingle

end Term

inductive Sentence where
  | comparison (column : ColumnRef) (operator : String) (term : Term)
  | both (left right : Sentence)
  | either (left right : Sentence)
  deriving DecidableEq

/-- How strongly the outermost connective of a text binds. -/
inductive Strength where
  | atom
  | conjunction
  | disjunction

/-- The text has the reading when it may bind as weakly as given. -/
inductive Reads : Strength → String → Sentence → Prop where
  | comparison {column : ColumnRef} {operator : String} {term : Term} (hcolumn : column.IsSingle)
      (hterm : term.Follows operator) :
      Reads .atom (column.sql ++ " " ++ operator ++ " " ++ term.sql)
        (.comparison column operator term)
  | parenthesized {text : String} {sentence : Sentence} (h : Reads .disjunction text sentence) :
      Reads .atom ("(" ++ text ++ ")") sentence
  | atom {text : String} {sentence : Sentence} (h : Reads .atom text sentence) :
      Reads .conjunction text sentence
  | both {text text' : String} {left right : Sentence} (hleft : Reads .atom text left)
      (hright : Reads .conjunction text' right) :
      Reads .conjunction (text ++ " AND " ++ text') (.both left right)
  | conjunction {text : String} {sentence : Sentence} (h : Reads .conjunction text sentence) :
      Reads .disjunction text sentence
  | either {text text' : String} {left right : Sentence} (hleft : Reads .conjunction text left)
      (hright : Reads .disjunction text' right) :
      Reads .disjunction (text ++ " OR " ++ text') (.either left right)

/-! ### Where a part ends

A reading may be followed by a closing parenthesis, or by a connective that binds more weakly than
everything in it. -/

def isSymbol (c : Char) : Bool := c ∈ ['=', '!', '<', '>', '~', '*']

/-- The characters of operators that are written in words. -/
def isKeywordChar (c : Char) : Bool := c.isUpper || c = ' '

def IsSymbolic (operator : String) : Prop :=
  operator.toList ≠ [] ∧ MadeOf isSymbol operator

def IsKeyword (operator : String) : Prop :=
  operator.toList.head?.any (fun c => !isSymbol c) = true ∧ MadeOf isKeywordChar operator

theorem isSymbolic_or_isKeyword {operator : String}
    (h : operator ∈ valueOperators ++ listOperators ++ rangeOperators) :
    IsSymbolic operator ∨ IsKeyword operator := by
  revert operator
  unfold IsSymbolic IsKeyword
  decide

theorem isSymbolic_of_mem_columnOperators {operator : String} (h : operator ∈ columnOperators) :
    IsSymbolic operator := by
  revert operator
  unfold IsSymbolic
  decide

namespace Term

/-- A term that is no column starts with a mark that no keyword holds. -/
theorem stops_sql {term : Term} (h : ∀ other, term ≠ .column other) (rest : List Char) :
    Stops isKeywordChar (term.sql.toList ++ rest) := by
  cases term with
  | parameter name => simp [sql]; decide
  | spread name => simp [sql]; decide
  | between low high => simp [sql]; decide
  | column other => exact absurd rfl (h other)

theorem Follows.operator_mem {operator : String} {term : Term} (h : term.Follows operator) :
    operator ∈ columnOperators ∨ operator ∈ valueOperators ++ listOperators ++ rangeOperators ∧
      ∀ other, term ≠ .column other := by
  cases term with
  | parameter name => exact .inr ⟨by simp [h.1], by simp⟩
  | spread name => exact .inr ⟨by simp [h.1], by simp⟩
  | between low high => exact .inr ⟨by simp [h.1], by simp⟩
  | column other => exact .inl h.1

theorem Follows.isSymbolic_or {operator : String} {term : Term} (h : term.Follows operator) :
    IsSymbolic operator ∨
      IsKeyword operator ∧ ∀ rest, Stops isKeywordChar (term.sql.toList ++ rest) := by
  rcases h.operator_mem with hmem | ⟨hmem, hne⟩
  · exact .inl (isSymbolic_of_mem_columnOperators hmem)
  · exact (isSymbolic_or_isKeyword hmem).imp_right fun hkeyword => ⟨hkeyword, stops_sql hne⟩

theorem not_isKeyword_of_isSymbolic_append {operator operator' : String} {rest rest' : List Char}
    (hsymbolic : IsSymbolic operator) (hkeyword : IsKeyword operator')
    (h : operator.toList ++ rest = operator'.toList ++ rest') : False := by
  obtain ⟨c, cs, hcs⟩ := List.exists_cons_of_ne_nil hsymbolic.1
  have hsymbol : isSymbol c = true := hsymbolic.2 c (by simp [hcs])
  have hstops : Stops isSymbol (operator'.toList ++ rest') := stops_append hkeyword.1 rest'
  rw [← h, hcs, List.cons_append, stops_cons, hsymbol] at hstops
  contradiction

theorem operator_unique {operator operator' : String} {term term' : Term}
    (hterm : term.Follows operator) (hterm' : term'.Follows operator') {rest rest' : List Char}
    (h : operator.toList ++ (" ".toList ++ (term.sql.toList ++ rest)) =
      operator'.toList ++ (" ".toList ++ (term'.sql.toList ++ rest'))) :
    operator = operator' ∧ term.sql.toList ++ rest = term'.sql.toList ++ rest' := by
  rcases hterm.isSymbolic_or with hsymbolic | ⟨hkeyword, hstops⟩ <;>
    rcases hterm'.isSymbolic_or with hsymbolic' | ⟨hkeyword', hstops'⟩
  · obtain ⟨hoperator, hrest⟩ := append_unique isSymbol hsymbolic.2 hsymbolic'.2
      (stops_append (by decide) _) (stops_append (by decide) _) h
    exact ⟨String.toList_inj.1 hoperator, List.append_cancel_left hrest⟩
  · exact (not_isKeyword_of_isSymbolic_append hsymbolic hkeyword' h).elim
  · exact (not_isKeyword_of_isSymbolic_append hsymbolic' hkeyword h.symm).elim
  · -- the blank behind a keyword belongs to the same class as the blanks inside it
    have hclass : ∀ {operator : String}, IsKeyword operator →
        ∀ c ∈ operator.toList ++ " ".toList, isKeywordChar c = true := by
      intro operator hoperator
      have hblank : MadeOf isKeywordChar " " := by decide
      exact List.forall_mem_append.2 ⟨hoperator.2, hblank⟩
    rw [← List.append_assoc, ← List.append_assoc operator'.toList] at h
    obtain ⟨hoperator, hrest⟩ := append_unique isKeywordChar (hclass hkeyword) (hclass hkeyword')
      (hstops rest) (hstops' rest') h
    exact ⟨String.toList_inj.1 (List.append_cancel_right hoperator), hrest⟩

/-- After one operator, the text of a term tells what kind of term it is. -/
theorem sql_unique {operator : String} {term term' : Term} (hterm : term.Follows operator)
    (hterm' : term'.Follows operator) {rest rest' : List Char} (hrest : Stops isPathChar rest)
    (hrest' : Stops isPathChar rest')
    (h : term.sql.toList ++ rest = term'.sql.toList ++ rest') : term = term' ∧ rest = rest' := by
  -- a mark can start no column, and the kinds that share a mark have different operators
  have hmark : ∀ {other : ColumnRef} {c : Char} {cs more : List Char}, other.IsSingle →
      isWordChar c = false → c :: cs ≠ other.sql.toList ++ more := by
    intro other c cs more hother hc heq
    obtain ⟨first, tail, hsql, hfirst⟩ := ColumnRef.IsSingle.exists_cons hother
    rw [hsql, List.cons_append] at heq
    rw [(List.cons.inj heq).1, hfirst] at hc
    contradiction
  have hdisjoint : ∀ operator ∈ valueOperators, operator ∉ rangeOperators := by decide
  cases term <;> cases term' <;>
    simp only [sql, String.toList_append, List.append_assoc] at h
  case parameter.parameter name name' =>
      obtain ⟨rfl, hrest⟩ := hterm.2.append_unique hterm'.2 hrest.isWordChar hrest'.isWordChar
        (List.append_cancel_left h)
      exact ⟨rfl, hrest⟩
  case spread.spread name name' =>
      obtain ⟨rfl, htail⟩ := hterm.2.append_unique hterm'.2 (stops_append (by decide) rest)
        (stops_append (by decide) rest') (List.append_cancel_left h)
      exact ⟨rfl, List.append_cancel_left htail⟩
  case between.between low high low' high' =>
      obtain ⟨rfl, htail⟩ := hterm.2.1.append_unique hterm'.2.1 (stops_append (by decide) _)
        (stops_append (by decide) _) (List.append_cancel_left h)
      obtain ⟨rfl, hrest⟩ := hterm.2.2.append_unique hterm'.2.2 hrest.isWordChar hrest'.isWordChar
        (List.append_cancel_left htail)
      exact ⟨rfl, hrest⟩
  case column.column other other' =>
      obtain ⟨rfl, hrest⟩ := ColumnRef.IsSingle.append_unique hterm.2 hterm'.2 hrest hrest' h
      exact ⟨rfl, hrest⟩
  case parameter.between => exact (hdisjoint _ hterm.1 hterm'.1).elim
  case between.parameter => exact (hdisjoint _ hterm'.1 hterm.1).elim
  case column.parameter => exact (hmark hterm.2 (by decide) h.symm).elim
  case column.spread => exact (hmark hterm.2 (by decide) h.symm).elim
  case column.between => exact (hmark hterm.2 (by decide) h.symm).elim
  case parameter.column => exact (hmark hterm'.2 (by decide) h).elim
  case spread.column => exact (hmark hterm'.2 (by decide) h).elim
  case between.column => exact (hmark hterm'.2 (by decide) h).elim
  all_goals simp at h

end Term

/-- The text may follow a part whose outermost connective binds as given. -/
def Strength.Ends (rest : List Char) : Strength → Prop
  | .atom => Stops isPathChar rest
  | .conjunction => rest = [] ∨ (∃ more, rest = ')' :: more) ∨ ∃ more, rest = " OR ".toList ++ more
  | .disjunction => rest = [] ∨ ∃ more, rest = ')' :: more

theorem Strength.Ends.conjunction {rest : List Char} (h : Strength.disjunction.Ends rest) :
    Strength.conjunction.Ends rest :=
  h.imp_right .inl

theorem Strength.Ends.atom {rest : List Char} (h : Strength.conjunction.Ends rest) :
    Strength.atom.Ends rest := by
  rcases h with rfl | ⟨more, rfl⟩ | ⟨more, rfl⟩
  · exact stops_nil _
  · exact stops_cons.2 (by decide)
  · exact stops_append (by decide) more

theorem Strength.Ends.ne_and {rest more : List Char} (h : Strength.conjunction.Ends rest) :
    rest ≠ " AND ".toList ++ more := by
  rcases h with rfl | ⟨more, rfl⟩ | ⟨more, rfl⟩ <;> simp

theorem Strength.Ends.ne_or {rest more : List Char} (h : Strength.disjunction.Ends rest) :
    rest ≠ " OR ".toList ++ more := by
  rcases h with rfl | ⟨more, rfl⟩ <;> simp

namespace Reads

theorem comparison_unique {column column' : ColumnRef} {operator operator' : String}
    {term term' : Term} {rest rest' : List Char} (hcolumn : column.IsSingle)
    (hcolumn' : column'.IsSingle) (hterm : term.Follows operator) (hterm' : term'.Follows operator')
    (hrest : Stops isPathChar rest) (hrest' : Stops isPathChar rest')
    (h : (column.sql ++ " " ++ operator ++ " " ++ term.sql).toList ++ rest =
      (column'.sql ++ " " ++ operator' ++ " " ++ term'.sql).toList ++ rest') :
    column = column' ∧ operator = operator' ∧ term = term' := by
  simp only [String.toList_append, List.append_assoc] at h
  obtain ⟨hcolumns, hafter⟩ := hcolumn.append_unique hcolumn' (stops_append (by decide) _)
    (stops_append (by decide) _) h
  obtain ⟨rfl, hterms⟩ := Term.operator_unique hterm hterm' (List.append_cancel_left hafter)
  exact ⟨hcolumns, rfl, (Term.sql_unique hterm hterm' hrest hrest' hterms).1⟩

theorem comparison_ne_parenthesis {column : ColumnRef} (hcolumn : column.IsSingle)
    {operator text : String} {term : Term} {rest rest' : List Char} :
    (column.sql ++ " " ++ operator ++ " " ++ term.sql).toList ++ rest ≠
      ("(" ++ text ++ ")").toList ++ rest' := by
  intro h
  obtain ⟨c, cs, hsql, hc⟩ := hcolumn.exists_cons
  simp only [String.toList_append, hsql, List.cons_append, List.append_assoc] at h
  rw [(List.cons.inj h).1] at hc
  exact absurd hc (by decide)

/-- Of all the texts a longer one starts with, one alone has a reading that may end there. -/
theorem unique {strength : Strength} {text text' : String} {sentence sentence' : Sentence}
    {rest rest' : List Char} (h : Reads strength text sentence)
    (h' : Reads strength text' sentence') (hrest : strength.Ends rest)
    (hrest' : strength.Ends rest') (heq : text.toList ++ rest = text'.toList ++ rest') :
    text = text' ∧ sentence = sentence' := by
  induction h generalizing text' sentence' rest rest' with
  | comparison hcolumn hterm =>
      cases h' with
      | comparison hcolumn' hterm' =>
          obtain ⟨rfl, rfl, rfl⟩ :=
            comparison_unique hcolumn hcolumn' hterm hterm' hrest hrest' heq
          exact ⟨rfl, rfl⟩
      | parenthesized h' => exact (comparison_ne_parenthesis hcolumn heq).elim
  | parenthesized h ih =>
      cases h' with
      | comparison hcolumn' hterm' => exact (comparison_ne_parenthesis hcolumn' heq.symm).elim
      | parenthesized h' =>
          simp only [String.toList_append, List.append_assoc] at heq
          obtain ⟨rfl, rfl⟩ := ih h' (.inr ⟨rest, rfl⟩) (.inr ⟨rest', rfl⟩)
            (List.append_cancel_left heq)
          exact ⟨rfl, rfl⟩
  | atom h ih =>
      cases h' with
      | atom h' => exact ih h' hrest.atom hrest'.atom heq
      | both hleft' hright' =>
          simp only [String.toList_append, List.append_assoc] at heq
          obtain ⟨rfl, -⟩ := ih hleft' hrest.atom (stops_append (by decide) _) heq
          exact (hrest.ne_and (List.append_cancel_left heq)).elim
  | both hleft hright ihleft ihright =>
      simp only [String.toList_append, List.append_assoc] at heq
      cases h' with
      | atom h' =>
          obtain ⟨rfl, -⟩ := ihleft h' (stops_append (by decide) _) hrest'.atom heq
          exact (hrest'.ne_and (List.append_cancel_left heq).symm).elim
      | both hleft' hright' =>
          simp only [String.toList_append, List.append_assoc] at heq
          obtain ⟨rfl, rfl⟩ :=
            ihleft hleft' (stops_append (by decide) _) (stops_append (by decide) _) heq
          obtain ⟨rfl, rfl⟩ := ihright hright' hrest hrest'
            (List.append_cancel_left (List.append_cancel_left heq))
          exact ⟨rfl, rfl⟩
  | conjunction h ih =>
      cases h' with
      | conjunction h' => exact ih h' hrest.conjunction hrest'.conjunction heq
      | either hleft' hright' =>
          simp only [String.toList_append, List.append_assoc] at heq
          obtain ⟨rfl, -⟩ := ih hleft' hrest.conjunction (.inr (.inr ⟨_, rfl⟩)) heq
          exact (hrest.ne_or (List.append_cancel_left heq)).elim
  | either hleft hright ihleft ihright =>
      simp only [String.toList_append, List.append_assoc] at heq
      cases h' with
      | conjunction h' =>
          obtain ⟨rfl, -⟩ := ihleft h' (.inr (.inr ⟨_, rfl⟩)) hrest'.conjunction heq
          exact (hrest'.ne_or (List.append_cancel_left heq).symm).elim
      | either hleft' hright' =>
          simp only [String.toList_append, List.append_assoc] at heq
          obtain ⟨rfl, rfl⟩ :=
            ihleft hleft' (.inr (.inr ⟨_, rfl⟩)) (.inr (.inr ⟨_, rfl⟩)) heq
          obtain ⟨rfl, rfl⟩ := ihright hright' hrest hrest'
            (List.append_cancel_left (List.append_cancel_left heq))
          exact ⟨rfl, rfl⟩

theorem sentence_unique {text : String} {sentence sentence' : Sentence}
    (h : Reads .disjunction text sentence) (h' : Reads .disjunction text sentence') :
    sentence = sentence' :=
  (h.unique h' (.inl rfl) (.inl rfl) rfl).2

end Reads

end FilterSql
