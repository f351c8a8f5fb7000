import FilterSql.Proofs.Grammar
import FilterSql.Proofs.Parameters

/-! The text of a predicate is a column, an operator and a term. In a placed predicate the three fit
together as the grammar asks, and all names in it are words, as those of places below a word are. -/

namespace FilterSql

namespace Operator

variable {operator : Operator}

theorem sql_mem_valueOperators (h : operator.category = .comparison ∨
    operator.category = .pattern ∨ operator.category = .regex) : operator.sql ∈ valueOperators := by
  revert h
  cases operator <;> decide

theorem sql_mem_listOperators (h : operator.category = .membership) :
    operator.sql ∈ listOperators := by
  revert h
  cases operator <;> decide

theorem sql_mem_rangeOperators (h : operator.category = .range) :
    operator.sql ∈ rangeOperators := by
  revert h
  cases operator <;> decide

theorem sql_mem_columnOperators (h : operator.category = .columnCompare) :
    operator.sql ∈ columnOperators := by
  revert h
  cases operator <;> decide

end Operator

variable {scope : Scope} {name space : String}

theorem isWord_partName {parent : String} (hparent : IsWord parent) (siblings index : Nat) :
    IsWord (partName parent siblings index) := by
  unfold partName
  split
  · exact hparent
  · rw [String.append_assoc]
    exact hparent.append (.append (by decide) (isWord_toString index).2)

theorem isWord_rootName (hspace : MadeOf isWordChar space) (index : Nat) :
    IsWord (rootName space index) :=
  (isWord_toString index).prepend hspace

namespace Predicate

def column : Predicate → ColumnRef
  | .compare column _ _ _ => column
  | .member column _ _ _ => column
  | .range column _ _ _ _ => column
  | .columns column _ _ => column

def operator : Predicate → Operator
  | .compare _ operator _ _ => operator
  | .member _ operator _ _ => operator
  | .range _ operator _ _ _ => operator
  | .columns _ operator _ => operator

/-- What stands to the right of the operator. -/
def term : Predicate → Term
  | .compare _ _ parameter _ => .parameter parameter
  | .member _ _ parameter _ => .spread parameter
  | .range _ _ parameter _ _ => .between (lowParameter parameter) (highParameter parameter)
  | .columns _ _ other => .column other

theorem sql_eq_term (predicate : Predicate) :
    predicate.sql = predicate.column.sql ++ " " ++ predicate.operator.sql ++ " " ++
      predicate.term.sql := by
  cases predicate <;> rw [← String.toList_inj] <;> simp [sql, column, operator, term, Term.sql]

variable {predicate : Predicate}

theorem Placed.gives_column (h : predicate.Placed scope name) : scope.Gives predicate.column := by
  cases h with
  | compare hcolumn => exact hcolumn
  | member hcolumn => exact hcolumn
  | range hcolumn => exact hcolumn
  | columns hcolumn => exact hcolumn

theorem Placed.isSingle (h : predicate.Placed scope name) (howner : IsWord scope.owner) :
    predicate.column.IsSingle :=
  h.gives_column.isSingle howner

theorem Placed.follows (h : predicate.Placed scope name) (howner : IsWord scope.owner)
    (hname : IsWord name) : predicate.term.Follows predicate.operator.sql := by
  cases h with
  | compare hcolumn hoperator => exact ⟨Operator.sql_mem_valueOperators hoperator, hname⟩
  | member hcolumn hoperator => exact ⟨Operator.sql_mem_listOperators hoperator, hname⟩
  | range hcolumn hoperator =>
      exact ⟨Operator.sql_mem_rangeOperators hoperator, hname.append (by decide),
        hname.append (by decide)⟩
  | columns hcolumn hoperator hother =>
      exact ⟨Operator.sql_mem_columnOperators hoperator, hother.isSingle howner⟩

end Predicate

/-- What holds of the predicates below a word, and passes from parts to the expression that they
form, holds of every expression below a word. -/
@[elab_as_elim]
theorem Expr.Placed.word_induction {motive : Expr → Prop} {expr : Expr}
    (h : expr.Placed scope name) (hname : IsWord name)
    (leaf : ∀ {name : String} {predicate : Predicate}, predicate.Placed scope name → IsWord name →
      motive (.leaf predicate))
    (ofParts : ∀ (connective : Connective) (parts : List Expr), (∀ part ∈ parts, motive part) →
      motive (Expr.ofParts connective parts)) : motive expr := by
  induction h with
  | leaf h => exact leaf h hname
  | ofParts connective h ih =>
      apply ofParts connective
      intro part hpart
      obtain ⟨index, hindex⟩ := exists_mem_zipIdx hpart
      exact ih _ hindex (isWord_partName hname _ _)

theorem Restriction.Placed.exists_word {restriction : Restriction}
    (h : restriction.Placed scope space) (hspace : MadeOf isWordChar space) {part : Expr}
    (hpart : part ∈ restriction.parts) : ∃ name, IsWord name ∧ part.Placed scope name := by
  obtain ⟨index, hindex⟩ := exists_mem_zipIdx hpart
  exact ⟨_, isWord_rootName hspace index, h _ hindex⟩

end FilterSql
