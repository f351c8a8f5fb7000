import FilterSql.Proofs.Ordering

/-! Windows of the result. The text that asks for a window is read by the rules of its dialect, and
what it says is carried out on the rows of the result. In every dialect this gives the rows of the
window that was requested, and where an offset needs an order there is exactly one. -/

namespace FilterSql

/-- The rows behind the skipped ones, by default all. -/
def Window.kept {ρ : Type} (window : Window) (rows : List ρ) : List ρ :=
  rows.drop (window.skip.getD 0).toNat

/-- The rows behind the skipped ones, at most as many as are to be taken. -/
def Window.rows {ρ : Type} (window : Window) (rows : List ρ) : List ρ :=
  match window.take with
  | none => window.kept rows
  | some take => (window.kept rows).take take.toNat

/-- What paging text says: how many rows are passed over and how many are returned at most. -/
structure Paging where
  offset : Option Nat
  limit : Option Nat
  deriving DecidableEq

def Paging.rows {ρ : Type} (paging : Paging) (rows : List ρ) : List ρ :=
  match paging.limit with
  | none => rows.drop (paging.offset.getD 0)
  | some limit => (rows.drop (paging.offset.getD 0)).take limit

/-! ### Reading -/

/-- The number written by a word of digits. -/
def numeral? (word : String) : Option Nat :=
  if word ≠ "" ∧ word.toList.all Char.isDigit = true then
    some (Nat.ofDigitChars 10 word.toList 0)
  else
    none

/-- A clause with a number: the words in front of it and those behind it. -/
structure NumberClause where
  before : List String
  after : List String

namespace NumberClause

def limit : NumberClause := ⟨["LIMIT"], []⟩

def offset : NumberClause := ⟨["OFFSET"], []⟩

def offsetRows : NumberClause := ⟨["OFFSET"], ["ROWS"]⟩

def fetchRows : NumberClause := ⟨["FETCH", "NEXT"], ["ROWS", "ONLY"]⟩

/-- Reads the clause at the start of the words. -/
def read? (clause : NumberClause) (words : List String) : Option (Nat × List String) :=
  match clause.before.isPrefixOf? words with
  | some (word :: rest) =>
    (numeral? word).bind fun number =>
      (clause.after.isPrefixOf? rest).map fun rest => (number, rest)
  | _ => none

/-- Reads the clause if the words start with it. -/
def readOptional (clause : NumberClause) (words : List String) : Option Nat × List String :=
  match clause.read? words with
  | some (number, rest) => (some number, rest)
  | none => (none, words)

/-- Reads two optional clauses that make up all of the words. The second one may depend on the
first: then it never stands alone. -/
def readBoth? (dependent : Bool) (first second : NumberClause) (words : List String) :
    Option (Option Nat × Option Nat) :=
  let (number, rest) := first.readOptional words
  let (number', rest) := second.readOptional rest
  if rest = [] ∧ (dependent = true → number'.isSome = true → number.isSome = true) then
    some (number, number')
  else
    none

end NumberClause

/-- An order that leaves the rows as they are. -/
def neutralOrder : List String := ["ORDER", "BY", "(", "SELECT", "NULL", ")"]

namespace Dialect

/-- Reads paging text by the rules of the dialect. An offset of rows may follow an order that only
stands there for its sake. -/
def read? (dialect : Dialect) (text : String) : Option Paging :=
  match dialect with
  | .postgres =>
    (NumberClause.readBoth? false .limit .offset (tokens text)).map fun (limit, offset) =>
      ⟨offset, limit⟩
  | .mySql =>
    (NumberClause.readBoth? true .limit .offset (tokens text)).map fun (limit, offset) =>
      ⟨offset, limit⟩
  | .msSql =>
    let words := tokens text
    let words := (neutralOrder.isPrefixOf? words).getD words
    (NumberClause.readBoth? true .offsetRows .fetchRows words).map fun (offset, limit) =>
      ⟨offset, limit⟩
  | .oracle =>
    (NumberClause.readBoth? false .offsetRows .fetchRows (tokens text)).map fun (offset, limit) =>
      ⟨offset, limit⟩

/-- What the text for a window says. Where no limit cannot be said a very large one stands for it,
and where a limit needs an offset there is one of zero. -/
def paging (dialect : Dialect) (window : Window) : Paging :=
  let said (skip take : Option UInt64) : Paging :=
    ⟨skip.map UInt64.toNat, take.map UInt64.toNat⟩
  match dialect with
  | .postgres | .oracle => said window.skip window.take
  | .mySql => said window.skip (window.take.or (window.skip.map fun _ => noLimit))
  | .msSql => said (window.skip.or (window.take.map fun _ => 0)) window.take

theorem rows_paging {ρ : Type} (dialect : Dialect) (window : Window) {rows : List ρ}
    (h : rows.length < UInt64.size) :
    (dialect.paging window).rows rows = window.rows rows := by
  obtain ⟨take, skip⟩ := window
  cases dialect with
  | postgres => cases take <;> cases skip <;> rfl
  | mySql =>
      cases take with
      | some take => cases skip <;> rfl
      | none =>
          cases skip with
          | none => rfl
          | some skip =>
              have hlimit : (rows.drop skip.toNat).length ≤ noLimit.toNat := by
                have hsize : noLimit.toNat = UInt64.size - 1 := by decide
                rw [List.length_drop, hsize]
                omega
              exact List.take_of_length_le hlimit
  | msSql => cases take <;> cases skip <;> rfl
  | oracle => cases take <;> cases skip <;> rfl

end Dialect

/-! ### Numbers -/

theorem numeral?_toString (n : Nat) : numeral? (toString n) = some n := by
  have hdigits : (toString n).toList = Nat.toDigits 10 n := by
    rw [Nat.toString_eq_ofList_toDigits, String.toList_ofList]
  have hall : (toString n).toList.all Char.isDigit = true := by
    rw [hdigits, List.all_eq_true]
    intro c hc
    exact Nat.isDigit_of_mem_toDigits (by decide) (by decide) hc
  rw [numeral?, if_pos ⟨(isWord_toString n).1, hall⟩, hdigits, Nat.ofDigitChars_ten_toDigits]

theorem isOrderless_toString (n : Nat) : IsOrderless (toString n) := by
  apply IsOrderless.of_isInner (isWord_toString n).inner (isWord_toString n).1
  intro hword
  have hnumber := numeral?_toString n
  have hnone : numeral? "ORDER" = none := by decide
  rw [hword, hnone] at hnumber
  contradiction

namespace NumberClause

/-- The words of the clause with a number. -/
def words (clause : NumberClause) (number : Nat) : List String :=
  clause.before ++ toString number :: clause.after

def optionalWords (clause : NumberClause) (number : Option Nat) : List String :=
  (number.map clause.words).getD []

theorem read?_words (clause : NumberClause) (number : Nat) (rest : List String) :
    clause.read? (clause.words number ++ rest) = some (number, rest) := by
  have hbefore : clause.before.isPrefixOf? (clause.words number ++ rest) =
      some (toString number :: (clause.after ++ rest)) := by
    rw [List.isPrefixOf?_eq_some_iff_append_eq]
    simp [words]
  have hafter : clause.after.isPrefixOf? (clause.after ++ rest) = some rest :=
    List.isPrefixOf?_eq_some_iff_append_eq.2 rfl
  rw [read?, hbefore]
  simp only [numeral?_toString, hafter, Option.bind_some, Option.map_some]

theorem readOptional_optionalWords {clause : NumberClause} {rest : List String}
    (hrest : clause.read? rest = none) (number : Option Nat) :
    clause.readOptional (clause.optionalWords number ++ rest) = (number, rest) := by
  cases number with
  | none =>
      show clause.readOptional rest = (none, rest)
      rw [readOptional, hrest]
  | some number =>
      show clause.readOptional (clause.words number ++ rest) = (some number, rest)
      rw [readOptional, read?_words]

/-- Clauses that start with different words are told apart. -/
theorem readBoth?_words {first second : NumberClause} {dependent : Bool}
    (hfirst : ∀ number, first.read? (second.optionalWords number) = none)
    (hsecond : second.read? [] = none) {number number' : Option Nat}
    (hdependent : dependent = true → number'.isSome = true → number.isSome = true) :
    readBoth? dependent first second (first.optionalWords number ++ second.optionalWords number') =
      some (number, number') := by
  have hrest := readOptional_optionalWords hsecond number'
  rw [List.append_nil] at hrest
  rw [readBoth?, readOptional_optionalWords (hfirst number') number]
  simp only [hrest]
  exact if_pos ⟨trivial, hdependent⟩

end NumberClause

/-! ### Written windows -/

/-- The texts are the clause with a number each, and none of them starts an order. -/
structure NumberClause.Writes (clause : NumberClause) (text : UInt64 → String) : Prop where
  tokens : ∀ count, tokens (text count) = clause.words count.toNat
  silent : ∀ count, IsSilent (text count)

namespace Dialect

theorem writes_counted (front back : String) (hfront : IsLead front)
    (hback : IsOrderless back) (hopens : Opens back) :
    NumberClause.Writes ⟨tokens front, tokens back⟩ fun count =>
      front ++ toString count.toNat ++ back := by
  refine ⟨?_, ?_⟩
  · intro count
    rw [tokens_append_of_opens _ hopens, tokens_append_of_closes hfront.closes,
      (isWord_toString _).tokens, List.append_assoc, List.singleton_append]
    rfl
  · intro count
    rw [String.append_assoc]
    apply hfront.isSilent
    exact (isOrderless_toString _).append_of_opens hback hopens

theorem writes_limit : NumberClause.limit.Writes limit := by
  have hwrites : NumberClause.limit.Writes fun count => " LIMIT " ++ toString count.toNat ++ "" :=
    writes_counted " LIMIT " "" (by decide) (by decide) (by decide)
  simp only [String.append_empty] at hwrites
  exact hwrites

theorem writes_offset : NumberClause.offset.Writes offset := by
  have hwrites : NumberClause.offset.Writes fun count => " OFFSET " ++ toString count.toNat ++ "" :=
    writes_counted " OFFSET " "" (by decide) (by decide) (by decide)
  simp only [String.append_empty] at hwrites
  exact hwrites

theorem writes_offsetRows : NumberClause.offsetRows.Writes offsetRows :=
  writes_counted " OFFSET " " ROWS" (by decide) (by decide) (by decide)

theorem writes_fetchRows : NumberClause.fetchRows.Writes fetchRows :=
  writes_counted " FETCH NEXT " " ROWS ONLY" (by decide) (by decide) (by decide)

variable {first second : NumberClause} {text text' : UInt64 → String}

theorem tokens_optional (h : first.Writes text) (count : Option UInt64) :
    tokens (optional text count) = first.optionalWords (count.map UInt64.toNat) := by
  cases count with
  | none => rfl
  | some count => exact h.tokens count

theorem isSilent_optional (h : first.Writes text) (count : Option UInt64) :
    IsSilent (optional text count) := by
  cases count with
  | none => exact isSilent_empty
  | some count => exact h.silent count

theorem isSilent_optional_append (h : first.Writes text) (h' : second.Writes text')
    (count count' : Option UInt64) :
    IsSilent (optional text count ++ optional text' count') :=
  (isSilent_optional h count).append (isSilent_optional h' count')

theorem tokens_optional_append (h : first.Writes text) (h' : second.Writes text')
    (count count' : Option UInt64) :
    tokens (optional text count ++ optional text' count') =
      first.optionalWords (count.map UInt64.toNat) ++
        second.optionalWords (count'.map UInt64.toNat) := by
  rw [tokens_append_of_opens _ (isSilent_optional h' count').added.opens, tokens_optional h,
    tokens_optional h']

theorem readBoth?_limit_offset {dependent : Bool} {limit offset : Option Nat}
    (hdependent : dependent = true → offset.isSome = true → limit.isSome = true) :
    NumberClause.readBoth? dependent .limit .offset
        (NumberClause.limit.optionalWords limit ++ NumberClause.offset.optionalWords offset) =
      some (limit, offset) := by
  apply NumberClause.readBoth?_words _ rfl hdependent
  intro number
  cases number <;> rfl

theorem readBoth?_offsetRows_fetchRows {dependent : Bool} {offset fetch : Option Nat}
    (hdependent : dependent = true → fetch.isSome = true → offset.isSome = true) :
    NumberClause.readBoth? dependent .offsetRows .fetchRows
        (NumberClause.offsetRows.optionalWords offset ++
          NumberClause.fetchRows.optionalWords fetch) =
      some (offset, fetch) := by
  apply NumberClause.readBoth?_words _ rfl hdependent
  intro number
  cases number <;> rfl

/-- The order that is written for the sake of an offset. -/
def substituteOrder (dialect : Dialect) (window : Window) (ordered : Bool) : String :=
  if dialect = .msSql ∧ window ≠ .everything ∧ ordered = false then " ORDER BY (SELECT NULL)"
  else ""

/-- The text for a window is the text of what it says. -/
theorem windowSql_eq (dialect : Dialect) (window : Window) (ordered : Bool) :
    dialect.windowSql window ordered =
      match dialect with
      | .postgres => optional limit window.take ++ optional offset window.skip
      | .mySql =>
        optional limit (window.take.or (window.skip.map fun _ => noLimit)) ++
          optional offset window.skip
      | .msSql =>
        substituteOrder .msSql window ordered ++
          (optional offsetRows (window.skip.or (window.take.map fun _ => 0)) ++
            optional fetchRows window.take)
      | .oracle => optional offsetRows window.skip ++ optional fetchRows window.take := by
  obtain ⟨take, skip⟩ := window
  cases dialect with
  | postgres => rfl
  | mySql => cases take <;> cases skip <;> simp [windowSql, optional]
  | msSql =>
      cases ordered <;> cases take <;> cases skip <;>
        simp [windowSql, optional, substituteOrder, Window.everything, String.append_assoc]
  | oracle => rfl

theorem isAdded_substituteOrder (dialect : Dialect) (window : Window) (ordered : Bool) :
    IsAdded (dialect.substituteOrder window ordered) := by
  unfold substituteOrder
  split
  · exact ⟨by decide, by decide⟩
  · exact isAdded_empty

theorem isBalanced_substituteOrder (dialect : Dialect) (window : Window) (ordered : Bool) :
    IsBalanced (dialect.substituteOrder window ordered) := by
  unfold substituteOrder
  split <;> decide

/-- Behind the substitute order the text for a window holds no other one. -/
theorem exists_windowSql_eq (dialect : Dialect) (window : Window) (ordered : Bool) :
    ∃ rest, dialect.windowSql window ordered = dialect.substituteOrder window ordered ++ rest ∧
      IsSilent rest := by
  have hlimit (limited skipped : Option UInt64) :
      IsSilent (optional limit limited ++ optional offset skipped) :=
    isSilent_optional_append writes_limit writes_offset limited skipped
  have hrows (skipped fetched : Option UInt64) :
      IsSilent (optional offsetRows skipped ++ optional fetchRows fetched) :=
    isSilent_optional_append writes_offsetRows writes_fetchRows skipped fetched
  rw [windowSql_eq]
  cases dialect with
  | postgres => exact ⟨_, (String.empty_append ..).symm, hlimit _ _⟩
  | mySql => exact ⟨_, (String.empty_append ..).symm, hlimit _ _⟩
  | msSql => exact ⟨_, rfl, hrows _ _⟩
  | oracle => exact ⟨_, (String.empty_append ..).symm, hrows _ _⟩

theorem isAdded_windowSql (dialect : Dialect) (window : Window) (ordered : Bool) :
    IsAdded (dialect.windowSql window ordered) := by
  obtain ⟨rest, hsql, hrest⟩ := dialect.exists_windowSql_eq window ordered
  rw [hsql]
  exact (isAdded_substituteOrder dialect window ordered).append hrest.added

theorem outerOrders_windowSql (dialect : Dialect) (window : Window) (ordered : Bool) :
    outerOrders (dialect.windowSql window ordered) =
      if dialect = .msSql ∧ window ≠ .everything ∧ ordered = false then 1 else 0 := by
  obtain ⟨rest, hsql, hrest⟩ := dialect.exists_windowSql_eq window ordered
  rw [hsql, outerOrders_append (isBalanced_substituteOrder dialect window ordered) hrest.added,
    hrest.silent, add_zero, substituteOrder]
  split
  · decide
  · rfl

theorem isPrefixOf?_neutralOrder (offset fetch : Option Nat) :
    neutralOrder.isPrefixOf? (NumberClause.offsetRows.optionalWords offset ++
      NumberClause.fetchRows.optionalWords fetch) = none := by
  cases offset <;> cases fetch <;> rfl

theorem getD_isPrefixOf?_substituteOrder {dialect : Dialect} {window : Window} {ordered : Bool}
    {words : List String} (hwords : neutralOrder.isPrefixOf? words = none) :
    (neutralOrder.isPrefixOf? (tokens (dialect.substituteOrder window ordered) ++ words)).getD
      (tokens (dialect.substituteOrder window ordered) ++ words) = words := by
  unfold substituteOrder
  split
  · have htokens : tokens " ORDER BY (SELECT NULL)" = neutralOrder := by decide
    have hprefix : neutralOrder.isPrefixOf? (neutralOrder ++ words) = some words :=
      List.isPrefixOf?_eq_some_iff_append_eq.2 rfl
    rw [htokens, hprefix]
    rfl
  · have htokens : tokens "" = [] := by decide
    rw [htokens, List.nil_append, hwords]
    rfl

theorem tokens_windowSql_msSql (window : Window) (ordered : Bool) :
    tokens (msSql.windowSql window ordered) =
      tokens (msSql.substituteOrder window ordered) ++
        (NumberClause.offsetRows.optionalWords ((msSql.paging window).offset) ++
          NumberClause.fetchRows.optionalWords ((msSql.paging window).limit)) := by
  rw [windowSql_eq]
  dsimp only
  rw [tokens_append_of_opens _ (isSilent_optional_append writes_offsetRows writes_fetchRows _
    _).added.opens, tokens_optional_append writes_offsetRows writes_fetchRows]
  rfl

/-- Reading the text for a window gives back what it says. -/
theorem read?_windowSql (dialect : Dialect) (window : Window) (ordered : Bool) :
    dialect.read? (dialect.windowSql window ordered) = some (dialect.paging window) := by
  cases dialect with
  | postgres =>
      simp only [read?, windowSql_eq, tokens_optional_append writes_limit writes_offset]
      rw [readBoth?_limit_offset (by simp)]
      rfl
  | mySql =>
      simp only [read?, windowSql_eq, tokens_optional_append writes_limit writes_offset]
      rw [readBoth?_limit_offset]
      · rfl
      · cases window.take <;> cases window.skip <;> simp
  | msSql =>
      have hdependent : true = true → (msSql.paging window).limit.isSome = true →
          (msSql.paging window).offset.isSome = true := by
        cases htake : window.take <;> cases hskip : window.skip <;> simp [paging, htake, hskip]
      simp only [read?]
      rw [tokens_windowSql_msSql, getD_isPrefixOf?_substituteOrder (isPrefixOf?_neutralOrder _ _),
        readBoth?_offsetRows_fetchRows hdependent]
      rfl
  | oracle =>
      simp only [read?, windowSql_eq, tokens_optional_append writes_offsetRows writes_fetchRows]
      rw [readBoth?_offsetRows_fetchRows (by simp)]
      rfl

end Dialect

example : Dialect.msSql.read? " ORDER BY (SELECT NULL) OFFSET 5 ROWS FETCH NEXT 2 ROWS ONLY" =
    some ⟨some 5, some 2⟩ := by
  decide

example : Dialect.mySql.read? " OFFSET 5" = none := by decide

theorem Select.sql_eq_clausesSql (select : Select) :
    select.sql = select.clausesSql ++
      select.dialect.windowSql select.window (!select.order.isEmpty) :=
  rfl

theorem Dialect.windowSql_eq_empty (dialect : Dialect) (window : Window) (ordered : Bool) :
    dialect.windowSql window ordered = "" ↔ window = .everything := by
  constructor
  · intro h
    have hread := dialect.read?_windowSql window ordered
    have hnothing : dialect.read? "" = some ⟨none, none⟩ := by cases dialect <;> decide
    rw [h, hnothing] at hread
    obtain ⟨take, skip⟩ := window
    cases dialect <;> cases take <;> cases skip <;> simp_all [Dialect.paging, Window.everything]
  · rintro rfl
    cases dialect <;> rfl

theorem Dialect.isPrefix_neutralOrder_iff {window : Window} (hwindow : window ≠ .everything)
    {ordered : Bool} :
    neutralOrder <+: tokens (Dialect.msSql.windowSql window ordered) ↔ ordered = false := by
  rw [tokens_windowSql_msSql, substituteOrder]
  cases ordered with
  | false =>
      have htokens : tokens " ORDER BY (SELECT NULL)" = neutralOrder := by decide
      rw [if_pos ⟨rfl, hwindow, rfl⟩, htokens]
      simp
  | true =>
      have htokens : tokens "" = [] := by decide
      have hrest := isPrefixOf?_neutralOrder (Dialect.msSql.paging window).offset
        (Dialect.msSql.paging window).limit
      rw [if_neg (by simp), htokens, List.nil_append]
      refine ⟨?_, by simp⟩
      rintro ⟨words, hwords⟩
      rw [List.isPrefixOf?_eq_some_iff_append_eq.2 hwords] at hrest
      contradiction

namespace Assembler

variable {assembler : Assembler} {request : Request} {select : Select}

theorem Stages.order_eq_nil_iff {main scope : Scope}
    (h : assembler.Stages request main scope select) : select.order = [] ↔ request.order = [] := by
  have hlength := (mapM_eq_ok.1 h.order).length_eq
  rw [← List.length_eq_zero_iff, ← List.length_eq_zero_iff, hlength]

/-- The text behind the clauses of a statement asks for the requested window: its reading by the
rules of the dialect leaves the rows of the window. A limit comes with every offset where one cannot
stand alone; an offset of rows that needs an order has exactly one, that of the statement or else
the neutral one; and a request for everything adds nothing to the clauses. -/
theorem sql_asks_for_window (h : assembler.assemble request = .ok select) :
    ∃ suffix paging, select.sql = select.clausesSql ++ suffix ∧
      assembler.dialect.read? suffix = some paging ∧
      (∀ {ρ : Type} (rows : List ρ), rows.length < UInt64.size →
        paging.rows rows = request.window.rows rows) ∧
      (suffix = "" ↔ request.window = .everything) ∧
      (assembler.dialect = .mySql → paging.offset.isSome = true → paging.limit.isSome = true) ∧
      outerOrders select.clausesSql = (if request.order = [] then 0 else 1) ∧
      (assembler.dialect = .msSql → suffix ≠ "" → outerOrders select.sql = 1 ∧
        (neutralOrder <+: tokens suffix ↔ request.order = [])) ∧
      (assembler.dialect ≠ .msSql ∨ suffix = "" →
        outerOrders select.sql = outerOrders select.clausesSql) := by
  obtain ⟨main, scope, hstages⟩ := assemble_eq_ok.1 h
  obtain ⟨hbalanced, horders⟩ := hstages.isChecked.outerOrders_clausesSql
  have hordered : (!select.order.isEmpty) = false ↔ request.order = [] := by
    rw [← hstages.order_eq_nil_iff]
    simp
  have hempty := assembler.dialect.windowSql_eq_empty request.window (!select.order.isEmpty)
  have hsuffix := assembler.dialect.outerOrders_windowSql request.window (!select.order.isEmpty)
  have hsql := select.sql_eq_clausesSql
  rw [hstages.dialect, hstages.window] at hsql
  have hall : outerOrders select.sql = outerOrders select.clausesSql +
      outerOrders (assembler.dialect.windowSql request.window (!select.order.isEmpty)) := by
    rw [hsql, outerOrders_append hbalanced (Dialect.isAdded_windowSql _ _ _)]
  refine ⟨_, _, hsql, Dialect.read?_windowSql _ _ _, ?_, hempty, ?_, ?_, ?_, ?_⟩
  · intro ρ rows hrows
    exact Dialect.rows_paging _ _ hrows
  · intro hdialect
    rw [hdialect]
    cases hskip : request.window.skip <;> cases htake : request.window.take <;>
      simp [Dialect.paging, hskip, htake]
  · simp only [horders, hstages.order_eq_nil_iff]
  · intro hdialect hne
    have hwindow : request.window ≠ .everything := fun hwindow => hne (hempty.2 hwindow)
    rw [hall, hsuffix, horders, hdialect]
    refine ⟨?_, (Dialect.isPrefix_neutralOrder_iff hwindow).trans hordered⟩
    simp only [hordered, hstages.order_eq_nil_iff, hwindow, ne_eq, not_false_eq_true, true_and]
    by_cases horder : request.order = []
    · rw [if_pos horder, if_pos horder]
    · rw [if_neg horder, if_neg horder]
  · intro hcases
    rw [hall, hsuffix, if_neg, add_zero]
    rintro ⟨hdialect, hwindow, -⟩
    rcases hcases with hother | hnone
    · exact hother hdialect
    · exact hwindow (hempty.1 hnone)

/-- An offset without an order, in the dialect where it needs one. -/
theorem sql_asks_for_window_unordered :
    let request : Request := { Request.empty with select := ["id"], window := ⟨none, some 5⟩ }
    ∃ select suffix paging,
      { ofTable "users" with dialect := .msSql }.assemble request = .ok select ∧
        select.sql = select.clausesSql ++ suffix ∧
        Dialect.msSql.read? suffix = some paging ∧
        paging.rows [1, 2, 3, 4, 5, 6, 7] = [6, 7] ∧ outerOrders select.sql = 1 ∧
        neutralOrder <+: tokens suffix := by
  intro request
  obtain ⟨select, hselect⟩ : ∃ select,
      { ofTable "users" with dialect := .msSql }.assemble request = .ok select := ⟨_, by cbv⟩
  obtain ⟨suffix, paging, hsql, hread, hrows, hempty, -, -, horder, -⟩ :=
    sql_asks_for_window hselect
  have hne : suffix ≠ "" := fun hsuffix => absurd (hempty.1 hsuffix) (by decide)
  obtain ⟨hone, hneutral⟩ := horder rfl hne
  exact ⟨select, suffix, paging, hselect, hsql, hread, hrows _ (by decide), hone, hneutral.2 rfl⟩

end Assembler

end FilterSql
