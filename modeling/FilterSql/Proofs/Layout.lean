import FilterSql.Proofs.Ordering
import FilterSql.Proofs.Reading

/-! How boolean SQL text is put together, with no rule which connective binds more strongly. A
layout is made of comparisons, parentheses and connectives. Where these stand can be told from the
words of the text, so all layouts of one text have the same parentheses and the same connectives. -/

namespace FilterSql

/-! ### Levels of a text -/

/-- The connectives of a text by the parentheses around them: those outside of all parentheses, and
those directly within each pair, in the order in which the pairs are closed. -/
structure Levels where
  outer : List Connective
  groups : List (List Connective)
  deriving DecidableEq

def IsUniform (connectives : List Connective) : Prop :=
  ∃ connective, ∀ other ∈ connectives, other = connective

/-- Each pair of parentheses has a connective, so there are at least two operands in it, and no
level has both connectives. -/
structure Levels.IsCanonical (levels : Levels) : Prop where
  outer : IsUniform levels.outer
  groups : ∀ group ∈ levels.groups, group ≠ [] ∧ IsUniform group

inductive Mark where
  | opening
  | closing
  | connective (connective : Connective)
  deriving DecidableEq

namespace Mark

def ofWord? (word : String) : Option Mark :=
  if word = "(" then some .opening
  else if word = ")" then some .closing
  else if word = "AND" then some (.connective .and)
  else if word = "OR" then some (.connective .or)
  else none

/-- A list parameter comes first. -/
def startsSpread (words : List String) : Bool :=
  words.head?.any fun word => ":...".toList.isPrefixOf word.toList

/-- The marks among words of which the first ones are passed over. So are the bounds of a range with
the word between them, and a list parameter with its parentheses. -/
def among (skipped : Nat) : List String → List Mark
  | [] => []
  | word :: words =>
    match skipped with
    | skipped + 1 => among skipped words
    | 0 =>
      if word = "BETWEEN" then among 3 words
      else if word = "(" ∧ startsSpread words = true then among 2 words
      else (ofWord? word).toList ++ among 0 words

end Mark

namespace Levels

/-- The levels of a text that goes on with the marks. The level that is open has the connectives
`outer` so far, and those around it are listed from the inside out. -/
def scan (outer : List Connective) (around : List (List Connective)) :
    List Mark → Option Levels
  | [] => if around = [] then some ⟨outer, []⟩ else none
  | .connective connective :: marks => scan (outer ++ [connective]) around marks
  | .opening :: marks => scan [] (outer :: around) marks
  | .closing :: marks =>
    match around with
    | [] => none
    | next :: around =>
      (scan next around marks).map fun levels => { levels with groups := outer :: levels.groups }

/-- Only a text that closes all its parentheses has levels. -/
def ofText? (text : String) : Option Levels := scan [] [] (Mark.among 0 (tokens text))

example : ofText? "t.a IN (:...0) OR (t.b BETWEEN :1_start AND :1_end AND t.c = :2)" =
    some ⟨[.or], [[.and]]⟩ := by
  decide +kernel

example : ofText? "(t.a = :0 AND t.b = :1" = none := by
  decide +kernel

end Levels

/-! ### Layouts -/

inductive Layout where
  | comparison (column : ColumnRef) (operator : String) (term : Term)
  | parenthesized (inner : Layout)
  | joined (connective : Connective) (left right : Layout)

namespace Layout

def sql : Layout → String
  | .comparison column operator term => column.sql ++ " " ++ operator ++ " " ++ term.sql
  | .parenthesized inner => "(" ++ inner.sql ++ ")"
  | .joined connective left right => left.sql ++ connective.separator ++ right.sql

def levels : Layout → Levels
  | .comparison _ _ _ => ⟨[], []⟩
  | .parenthesized inner => ⟨[], inner.levels.groups ++ [inner.levels.outer]⟩
  | .joined connective left right =>
    ⟨left.levels.outer ++ connective :: right.levels.outer,
      left.levels.groups ++ right.levels.groups⟩

/-- What the layout says, without its parentheses. -/
def sentence : Layout → Sentence
  | .comparison column operator term => .comparison column operator term
  | .parenthesized inner => inner.sentence
  | .joined connective left right => connective.pair left.sentence right.sentence

/-- Every comparison is one of single columns and of parameters that are words. -/
inductive IsReadable : Layout → Prop where
  | comparison {column : ColumnRef} {operator : String} {term : Term} (hcolumn : column.IsSingle)
      (hterm : term.Follows operator) : IsReadable (.comparison column operator term)
  | parenthesized {inner : Layout} (h : inner.IsReadable) : IsReadable (.parenthesized inner)
  | joined (connective : Connective) {left right : Layout} (hleft : left.IsReadable)
      (hright : right.IsReadable) : IsReadable (.joined connective left right)

end Layout

/-! ### Words -/

namespace Mark

/-- The word marks nothing and starts nothing that is passed over. -/
def IsSilentWord (word : String) : Prop :=
  word ≠ "BETWEEN" ∧ word ≠ "(" ∧ ofWord? word = none

instance (word : String) : Decidable (IsSilentWord word) :=
  inferInstanceAs (Decidable (word ≠ "BETWEEN" ∧ word ≠ "(" ∧ ofWord? word = none))

theorem among_silent {front : List String} (hfront : ∀ word ∈ front, IsSilentWord word)
    (words : List String) : among 0 (front ++ words) = among 0 words := by
  induction front with
  | nil => rfl
  | cons word front ih =>
      rw [List.forall_mem_cons] at hfront
      obtain ⟨⟨hbetween, hopening, hmark⟩, hfront⟩ := hfront
      rw [List.cons_append, among, if_neg hbetween, if_neg fun h => hopening h.1, hmark, ih hfront]
      rfl

/-- A word with one of these characters is no keyword and no parenthesis. -/
theorem isSilentWord_of_mem {word : String} {c : Char} (hc : c = '.' ∨ c = ':')
    (hmem : c ∈ word.toList) : IsSilentWord word := by
  have hmarks : ∀ mark ∈ ["BETWEEN", "(", ")", "AND", "OR"],
      '.' ∉ mark.toList ∧ ':' ∉ mark.toList := by decide
  have hne : ∀ mark ∈ ["BETWEEN", "(", ")", "AND", "OR"], word ≠ mark := by
    rintro mark hmark rfl
    rcases hc with rfl | rfl
    · exact (hmarks _ hmark).1 hmem
    · exact (hmarks _ hmark).2 hmem
  simp only [List.forall_mem_cons] at hne
  obtain ⟨hbetween, hopening, hclosing, hand, hor, -⟩ := hne
  refine ⟨hbetween, hopening, ?_⟩
  rw [ofWord?, if_neg hopening, if_neg hclosing, if_neg hand, if_neg hor]

theorem among_connective (connective : Connective) (words : List String) :
    among 0 (connective.operator.sql :: words) = .connective connective :: among 0 words := by
  have hbetween : connective.operator.sql ≠ "BETWEEN" := by cases connective <;> decide
  have hopening : connective.operator.sql ≠ "(" := by cases connective <;> decide
  have hmark : ofWord? connective.operator.sql = some (.connective connective) := by
    cases connective <;> decide
  rw [among, if_neg hbetween, if_neg fun h => hopening h.1, hmark]
  rfl

end Mark

theorem tokens_slot {mark name : String} (hmark : MadeOf isInner mark) (hname : IsWord name) :
    tokens (mark ++ name) = [mark ++ name] := by
  apply tokens_of_isInner _ (hmark.append hname.inner)
  intro hempty
  exact hname.1 (String.append_eq_empty_iff.1 hempty).2

theorem tokens_parenthesized (text : String) :
    tokens ("(" ++ text ++ ")") = "(" :: (tokens text ++ [")"]) := by
  rw [tokens_append_of_opens _ (by decide), tokens_append_of_closes (by decide)]
  rfl

theorem ColumnRef.IsSingle.tokens {column : ColumnRef} (h : column.IsSingle) :
    tokens column.sql = [column.sql] :=
  tokens_of_isInner (ne_empty_of_mem column.dot_mem_sql) h.2.inner

theorem tokens_comparison {column : ColumnRef} (hcolumn : column.IsSingle)
    (operator : String) (term : Term) :
    tokens (column.sql ++ " " ++ operator ++ " " ++ term.sql) =
      column.sql :: (tokens operator ++ tokens term.sql) := by
  rw [tokens_append_of_closes (Closes.append _ (by decide)), tokens_append_of_opens _ (by decide),
    tokens_append_of_closes (Closes.append _ (by decide)), tokens_append_of_opens _ (by decide),
    hcolumn.tokens]
  have hblank : tokens " " = [] := by decide +kernel
  simp [hblank]

theorem Connective.tokens_separator (connective : Connective) :
    tokens connective.separator = [connective.operator.sql] := by
  cases connective <;> decide +kernel

theorem tokens_joined (connective : Connective) (left right : String) :
    tokens (left ++ connective.separator ++ right) =
      tokens left ++ connective.operator.sql :: tokens right := by
  have hopens : Opens connective.separator := by cases connective <;> decide
  have hcloses : Closes connective.separator := by cases connective <;> decide
  rw [tokens_append_of_closes (hcloses.append _), tokens_append_of_opens _ hopens,
    connective.tokens_separator, List.append_assoc]
  rfl

namespace Term

theorem tokens_spread {name : String} (hname : IsWord name) :
    tokens (spread name).sql = ["(", ":..." ++ name, ")"] := by
  rw [sql_spread, tokens_parenthesized, tokens_slot (by decide) hname]
  rfl

theorem tokens_between {low high : String} (hlow : IsWord low) (hhigh : IsWord high) :
    tokens (between low high).sql = [":" ++ low, "AND", ":" ++ high] := by
  have hsql : (between low high).sql =
      (":" ++ low) ++ Connective.and.separator ++ (":" ++ high) := by
    rw [sql_between, ← String.append_assoc]
    rfl
  rw [hsql, tokens_joined, tokens_slot (by decide) hlow, tokens_slot (by decide) hhigh]
  rfl

/-- What an operator and its term say marks nothing: the parentheses of a list parameter and the
word between the bounds of a range are passed over. -/
theorem Follows.among {operator : String} {term : Term} (h : term.Follows operator)
    (words : List String) :
    Mark.among 0 (tokens operator ++ (tokens term.sql ++ words)) = Mark.among 0 words := by
  have hslot : ∀ {name : String}, IsWord name →
      ∀ word ∈ tokens (":" ++ name), Mark.IsSilentWord word := by
    intro name hname
    rw [tokens_slot (by decide) hname, List.forall_mem_singleton]
    exact Mark.isSilentWord_of_mem (.inr rfl) (by simp)
  cases term with
  | parameter name =>
      have hoperator : ∀ operator ∈ valueOperators,
          ∀ word ∈ tokens operator, Mark.IsSilentWord word := by decide +kernel
      rw [Mark.among_silent (hoperator _ h.1)]
      exact Mark.among_silent (hslot h.2) words
  | spread name =>
      have hoperator : ∀ operator ∈ listOperators,
          ∀ word ∈ tokens operator, Mark.IsSilentWord word := by decide +kernel
      have hspread : Mark.startsSpread ((":..." ++ name) :: ")" :: words) = true := by
        simp [Mark.startsSpread]
      rw [Mark.among_silent (hoperator _ h.1), tokens_spread h.2]
      simp only [List.cons_append, List.nil_append]
      rw [Mark.among, if_neg (by decide), if_pos ⟨rfl, hspread⟩]
      rfl
  | between low high =>
      have hoperator : ∀ operator ∈ rangeOperators, ∃ front,
          tokens operator = front ++ ["BETWEEN"] ∧ ∀ word ∈ front, Mark.IsSilentWord word := by
        intro operator hoperator
        simp only [rangeOperators, List.mem_cons, List.not_mem_nil, or_false] at hoperator
        rcases hoperator with rfl | rfl
        · exact ⟨[], by decide +kernel, by simp⟩
        · exact ⟨["NOT"], by decide +kernel, by decide⟩
      obtain ⟨front, hfront, hsilent⟩ := hoperator _ h.1
      rw [hfront, tokens_between h.2.1 h.2.2, List.append_assoc, Mark.among_silent hsilent]
      simp only [List.cons_append, List.nil_append]
      rw [Mark.among, if_pos rfl]
      rfl
  | column other =>
      have hoperator : ∀ operator ∈ columnOperators,
          ∀ word ∈ tokens operator, Mark.IsSilentWord word := by decide +kernel
      have htokens : tokens (column other).sql = [other.sql] := h.2.tokens
      rw [Mark.among_silent (hoperator _ h.1), htokens]
      apply Mark.among_silent
      rw [List.forall_mem_singleton]
      exact Mark.isSilentWord_of_mem (.inl rfl) other.dot_mem_sql

end Term

/-! ### Levels of a layout -/

/-- The levels of a text in front of which the groups have been closed. -/
def Levels.behind (groups : List (List Connective)) (levels : Levels) : Levels :=
  { levels with groups := groups ++ levels.groups }

namespace Layout

variable {layout : Layout}

/-- No layout starts with a list parameter. -/
theorem IsReadable.startsSpread (h : layout.IsReadable) (words : List String) :
    Mark.startsSpread (tokens layout.sql ++ words) = false := by
  induction h generalizing words with
  | @comparison column operator term hcolumn hterm =>
      obtain ⟨c, cs, hsql, hc⟩ := hcolumn.exists_cons
      rw [sql, tokens_comparison hcolumn]
      have hcolon : c ≠ ':' := by
        rintro rfl
        exact absurd hc (by decide)
      simp [Mark.startsSpread, hsql, List.isPrefixOf, hcolon.symm]
  | parenthesized h ih =>
      rw [sql, tokens_parenthesized]
      rfl
  | joined connective hleft hright ihleft ihright =>
      rw [sql, tokens_joined, List.append_assoc]
      exact ihleft _

/-- Behind the words of a layout the scan goes on at the level it was at. -/
theorem IsReadable.scan (h : layout.IsReadable) (outer : List Connective)
    (around : List (List Connective)) (words : List String) :
    Levels.scan outer around (Mark.among 0 (tokens layout.sql ++ words)) =
      (Levels.scan (outer ++ layout.levels.outer) around (Mark.among 0 words)).map
        (Levels.behind layout.levels.groups) := by
  have hbehind : ∀ groups groups' : List (List Connective),
      Levels.behind groups ∘ Levels.behind groups' = Levels.behind (groups ++ groups') := by
    intro groups groups'
    funext levels
    simp [Levels.behind]
  induction h generalizing outer around words with
  | @comparison column operator term hcolumn hterm =>
      have hsilent : Mark.IsSilentWord column.sql :=
        Mark.isSilentWord_of_mem (.inl rfl) column.dot_mem_sql
      have hwords : Mark.among 0 (column.sql :: (tokens operator ++ tokens term.sql) ++ words) =
          Mark.among 0 words := by
        rw [← List.singleton_append, List.append_assoc, Mark.among_silent (by simpa using hsilent),
          List.append_assoc, hterm.among]
      rw [sql, tokens_comparison hcolumn, hwords, levels, List.append_nil]
      exact Option.map_id'.symm
  | @parenthesized inner h ih =>
      have hopening : Mark.among 0 ("(" :: (tokens inner.sql ++ ")" :: words)) =
          .opening :: Mark.among 0 (tokens inner.sql ++ ")" :: words) := by
        rw [Mark.among, if_neg (by decide), if_neg (by simp [h.startsSpread])]
        rfl
      have hclosing : Mark.among 0 (")" :: words) = .closing :: Mark.among 0 words := by
        rw [Mark.among, if_neg (by decide), if_neg (by simp)]
        rfl
      rw [sql, tokens_parenthesized, List.cons_append, List.append_assoc, List.singleton_append,
        hopening, Levels.scan, ih, hclosing, Levels.scan, levels, List.append_nil, List.nil_append,
        ← hbehind, ← Option.map_map]
      rfl
  | @joined connective left right hleft hright ihleft ihright =>
      rw [sql, tokens_joined, List.append_assoc, List.cons_append, ihleft, Mark.among_connective,
        Levels.scan,
        ihright, Option.map_map, hbehind, levels]
      simp only [List.append_assoc, List.cons_append, List.nil_append]

theorem IsReadable.ofText? (h : layout.IsReadable) :
    Levels.ofText? layout.sql = some layout.levels := by
  have hscan := h.scan [] [] []
  rw [List.append_nil] at hscan
  rw [Levels.ofText?, hscan]
  simp [Mark.among, Levels.scan, Levels.behind]

theorem IsReadable.levels_eq {layout other : Layout} (h : layout.IsReadable)
    (hother : other.IsReadable) (hsql : other.sql = layout.sql) : other.levels = layout.levels := by
  have hlevels := hother.ofText?
  rw [hsql, h.ofText?] at hlevels
  exact (Option.some.inj hlevels).symm

end Layout

end FilterSql
